import LetterGrammar.Ebnf.Literal
import LetterGrammar.Text.Quoted

/-!
# Numbers of the EBNF notation

The notation has no use for numbers, but they are tokens: a number is complained about as a whole. It
may have a base, digits in groups, a fraction and an exponent.

## Contents

- **`NumberForm`**: integers with a base, and the names of the bases.
- **`NumberScan`**, **`scanNumber`**: how far a number reaches, whether it is an integer, and the
  complaints about it.
-/

namespace LetterGrammar
namespace Ebnf

/-- The base a number is written to. -/
inductive NumberForm
  | decimal
  | leadingZero
  | hexadecimal
  | octal
  | binary
deriving DecidableEq, Repr

namespace NumberForm

/-- The base for the digits. -/
def base : NumberForm → Nat
  | decimal => 10
  | leadingZero => 8
  | hexadecimal => 16
  | octal => 8
  | binary => 2

/-- The name in complaints. -/
def name : NumberForm → String
  | decimal => "decimal literal"
  | leadingZero => "octal literal"
  | hexadecimal => "hexadecimal literal"
  | octal => "octal literal"
  | binary => "binary literal"

end NumberForm

/-- A character of a run of digits: bases up to ten share the decimal digits. -/
def isDigitOf (form : NumberForm) (c : Char) : Bool :=
  c = '_' || (if form = .hexadecimal then digitValue c < 16 else isDecimal c)

/-- The result of scanning a number. -/
structure NumberScan where
  length : Nat
  isFloat : Bool
  complaints : List Complaint
deriving DecidableEq, Repr

/-- A run of digits and the rest of the text. -/
def digitRun (form : NumberForm) (text : List Char) : List Char × List Char :=
  (text.takeWhile (isDigitOf form), text.dropWhile (isDigitOf form))

/-- The lower-case letter of an ASCII letter. -/
def lowerLetter (c : Char) : Char := c.toLower

/-- The form of a number, whether its lead already has a digit, and the text after the lead. -/
def numberLead (text : List Char) : NumberForm × Bool × List Char :=
  match text with
  | '0' :: rest =>
    match rest with
    | c :: after =>
      if lowerLetter c = 'x' then (.hexadecimal, false, after)
      else if lowerLetter c = 'o' then (.octal, false, after)
      else if lowerLetter c = 'b' then (.binary, false, after)
      else (.leadingZero, true, rest)
    | [] => (.leadingZero, true, [])
  | _ => (.decimal, false, text)

/-- The separators of a whole number fit. A base letter counts as a digit before it. -/
def separatorsOk (form : NumberForm) (text : List Char) : Bool :=
  match form with
  | .hexadecimal => separatorsFit (fun c => digitValue c < 16) '0' (text.drop 2)
  | .octal | .binary => separatorsFit isDecimal '0' (text.drop 2)
  | .leadingZero => separatorsFit isDecimal '0' (text.drop 1)
  | .decimal => separatorsFit isDecimal '.' text

/-- Scans a number. With `afterDot` the text starts behind the decimal point. A complaint is made as soon
    as the character behind the part complained about is read. -/
def scanNumber (afterDot : Bool) (text : List Char) : NumberScan :=
  let made (due : Bool) (rest : List Char) (message : String) : List Complaint :=
    if due then [⟨text.length - rest.length + (if afterDot then 1 else 0), message⟩] else []
  let (form, hasLead, body) := if afterDot then (.decimal, false, text) else numberLead text
  let (whole, rest) := if afterDot then ([], body) else digitRun form body
  let dotted := afterDot || rest.head? = some '.'
  let rest := if afterDot then rest else if dotted then rest.drop 1 else rest
  let radix := made (dotted && (form = .octal || form = .binary)) rest
    ("invalid radix point in " ++ form.name)
  let (fraction, rest) := if dotted then digitRun form rest else ([], rest)
  let noDigits := made (!hasLead && (whole ++ fraction).all (· = '_')) rest (form.name ++ " has no digits")
  let mark := rest.head?.map lowerLetter
  let hasExponent := mark = some 'e' || mark = some 'p'
  let markText := quoteCharLiteral (rest.head?.getD 'e')
  let exponentText := rest.drop 1
  let exponentText :=
    if exponentText.head? = some '+' || exponentText.head? = some '-' then exponentText.drop 1
    else exponentText
  let (exponent, afterExponent) := digitRun .decimal exponentText
  let exponents :=
    if hasExponent then
      made (mark = some 'e' && form ≠ .decimal && form ≠ .leadingZero) rest
        (markText ++ " exponent requires decimal mantissa")
      ++ made (mark = some 'p' && form ≠ .hexadecimal) rest
        (markText ++ " exponent requires hexadecimal mantissa")
      ++ made (exponent.all (· = '_')) afterExponent "exponent has no digits"
    else made (form = .hexadecimal && dotted) rest "hexadecimal mantissa requires a 'p' exponent"
  let rest := if hasExponent then afterExponent else rest
  let isFloat := dotted || hasExponent
  let invalid := match whole.find? fun c => c ≠ '_' && form.base ≤ digitValue c with
    | some c => made (!isFloat) rest ("invalid digit " ++ quoteCharLiteral c ++ " in " ++ form.name)
    | none => []
  let length := text.length - rest.length
  let separators := made ((text.take length).contains '_' && !separatorsOk form (text.take length)) rest
    "'_' must separate successive digits"
  ⟨length, isFloat, radix ++ noDigits ++ exponents ++ invalid ++ separators⟩
where
  /-- A character between single quotes. -/
  quoteCharLiteral (c : Char) : String :=
    String.ofList ('\'' :: (quoteChar c ++ ['\'']))

end Ebnf
end LetterGrammar
