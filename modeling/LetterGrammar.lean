import LetterGrammar.Command.Action
import LetterGrammar.Command.Arguments
import LetterGrammar.Command.Dump
import LetterGrammar.Command.Execution
import LetterGrammar.Command.Flag
import LetterGrammar.Command.Folder
import LetterGrammar.Command.Help
import LetterGrammar.Command.Invocation
import LetterGrammar.Command.Path
import LetterGrammar.Command.Run
import LetterGrammar.Command.Settings
import LetterGrammar.Command.Usage
import LetterGrammar.Command.Value
import LetterGrammar.Command.Variable
import LetterGrammar.Document.Basic
import LetterGrammar.Ebnf.Expression
import LetterGrammar.Ebnf.Literal
import LetterGrammar.Ebnf.Number
import LetterGrammar.Ebnf.Parser
import LetterGrammar.Ebnf.Reader
import LetterGrammar.Ebnf.Token
import LetterGrammar.Ebnf.Verification
import LetterGrammar.Ebnf.Writer
import LetterGrammar.Fault
import LetterGrammar.Form
import LetterGrammar.Grammar.Basic
import LetterGrammar.Grammar.Classification
import LetterGrammar.Grammar.Derivation
import LetterGrammar.Grammar.Generating
import LetterGrammar.Grammar.RuleTable
import LetterGrammar.Greibach.Allocator
import LetterGrammar.Greibach.Conversion
import LetterGrammar.Greibach.Leading
import LetterGrammar.Greibach.Trace
import LetterGrammar.Json.Number
import LetterGrammar.Json.Reader
import LetterGrammar.Json.Value
import LetterGrammar.Language.Choice
import LetterGrammar.Language.Enumeration
import LetterGrammar.Language.Sampling
import LetterGrammar.Language.Shortest
import LetterGrammar.Listing
import LetterGrammar.Loading
import LetterGrammar.Locale
import LetterGrammar.Main
import LetterGrammar.Native.File
import LetterGrammar.Native.Reader
import LetterGrammar.Native.Token
import LetterGrammar.Native.Writer
import LetterGrammar.Position
import LetterGrammar.Proofs.Canonical
import LetterGrammar.Proofs.Decoding
import LetterGrammar.Proofs.Document
import LetterGrammar.Proofs.Ebnf.Expansion
import LetterGrammar.Proofs.Ebnf.Order
import LetterGrammar.Proofs.Ebnf.Parser
import LetterGrammar.Proofs.Ebnf.RoundTrip
import LetterGrammar.Proofs.Ebnf.Token
import LetterGrammar.Proofs.Ebnf.Verification
import LetterGrammar.Proofs.Greibach.Allocator
import LetterGrammar.Proofs.Greibach.Ascent
import LetterGrammar.Proofs.Greibach.Closing
import LetterGrammar.Proofs.Greibach.Events
import LetterGrammar.Proofs.Greibach.Independence
import LetterGrammar.Proofs.Greibach.Language
import LetterGrammar.Proofs.Greibach.Ranks
import LetterGrammar.Proofs.Greibach.Run
import LetterGrammar.Proofs.Greibach.Shape
import LetterGrammar.Proofs.Greibach.Soundness
import LetterGrammar.Proofs.Greibach.Totality
import LetterGrammar.Proofs.Greibach.Trace
import LetterGrammar.Proofs.Height
import LetterGrammar.Proofs.Language.Choice
import LetterGrammar.Proofs.Language.Enumeration
import LetterGrammar.Proofs.Language.Sampling
import LetterGrammar.Proofs.Language.Shortest
import LetterGrammar.Proofs.Linearity
import LetterGrammar.Proofs.Lines
import LetterGrammar.Proofs.Listing
import LetterGrammar.Proofs.Native.File
import LetterGrammar.Proofs.Native.Layout
import LetterGrammar.Proofs.Native.Reader
import LetterGrammar.Proofs.Native.RoundTrip
import LetterGrammar.Proofs.Precedence
import LetterGrammar.Proofs.Regular
import LetterGrammar.Proofs.Rewriting
import LetterGrammar.Proofs.RuleTable
import LetterGrammar.Proofs.Text
import LetterGrammar.Proofs.Tree
import LetterGrammar.Proofs.Validation
import LetterGrammar.Symbol
import LetterGrammar.Text.Alphabet
import LetterGrammar.Text.Armor
import LetterGrammar.Text.ByteOrder
import LetterGrammar.Text.Calendar
import LetterGrammar.Text.CodeRange
import LetterGrammar.Text.Decimal
import LetterGrammar.Text.Digit
import LetterGrammar.Text.Distance
import LetterGrammar.Text.Glyph
import LetterGrammar.Text.Integer
import LetterGrammar.Text.Letter
import LetterGrammar.Text.LowerCase
import LetterGrammar.Text.Printable
import LetterGrammar.Text.Quoted
import LetterGrammar.Text.Shortest
import LetterGrammar.Toml.Key
import LetterGrammar.Toml.Literal
import LetterGrammar.Toml.Moment
import LetterGrammar.Toml.Number
import LetterGrammar.Toml.Reader
import LetterGrammar.Toml.Token
import LetterGrammar.Toml.Value
import LetterGrammar.Toml.Writer
import LetterGrammar.Yaml.Cursor
import LetterGrammar.Yaml.Meaning
import LetterGrammar.Yaml.Node
import LetterGrammar.Yaml.Reader
import LetterGrammar.Yaml.Scalar
import LetterGrammar.Yaml.Source
import LetterGrammar.Yaml.Tag
import LetterGrammar.Yaml.Token
import LetterGrammar.Yaml.Writer
