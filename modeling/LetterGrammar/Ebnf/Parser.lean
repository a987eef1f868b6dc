import LetterGrammar.Ebnf.Expression
import LetterGrammar.Ebnf.Token
import LetterGrammar.Fault

/-!
# Reading EBNF productions

The reader looks one token ahead. At a token that does not fit it complains, passes over that token and
goes on, so that one text yields all its complaints.

    production = name "=" [ expression ] "." .
    expression = sequence { "|" sequence } .
    sequence   = term { term } .
    term       = name | literal [ "…" literal ] | "(" expression ")" | "[" … "]" | "{" … "}" .

## Contents

- **`Reading`**: the remaining tokens and the complaints so far.
- **`Reading.expect`**: passing over a token of a given class.
- **`expression`** and its parts, **`production`**, **`productions`**.
- **`parse`**: the productions of a text, or the complaints.
-/

namespace LetterGrammar
namespace Ebnf

/-- The state of a reading: the current token, the tokens after it, and the complaints so far, the last
    one first. -/
structure Reading where
  current : Token
  rest : List Token
  complaints : List String

namespace Reading

/-- Goes on to the next token. The end of the text stays where it is. -/
def next (r : Reading) : Reading :=
  match r.rest with
  | [] => r
  | t :: ts => ⟨t, ts, r.complaints⟩

/-- Adds a complaint about a place. -/
def complain (r : Reading) (place : Position) (text : String) : Reading :=
  ⟨r.current, r.rest, (describe place ++ ": " ++ text) :: r.complaints⟩

/-- Complains that something else was expected in place of the current token. -/
def complainExpected (r : Reading) (expected : String) : Reading :=
  r.complain r.current.place
    ("expected \"" ++ expected ++ "\", found " ++ r.current.kind.name
      ++ (match r.current.kind with
        | .sign _ => ""
        | _ => " " ++ Glyph.text r.current.text))

/-- Passes over the current token, which should be of the given class. -/
def expect (r : Reading) (kind : TokenClass) : Reading :=
  (if r.current.kind = kind then r else r.complainExpected kind.name).next

end Reading

/-- The value of the literal a token stands for; a malformed literal stands for nothing. -/
def literalValue (t : Token) : List Glyph :=
  (unquote? t.text).getD []

/-- The token is a literal. -/
def Token.isLiteral (t : Token) : Bool :=
  t.kind = .string || t.kind = .rawString

/-- The literal at the end of a range. -/
def rangeEnd (r : Reading) : Reading :=
  if r.current.isLiteral then r.next else r.expect .string

/-- The horizontal ellipsis, the sign of a range. -/
def ellipsis : TokenClass := .sign '…'

mutual

/-- Sequences with bars between them. -/
def expression : Nat → Reading → Expression × Reading
  | 0, r => (.nothing, r)
  | fuel + 1, r =>
    let (first, r) := sequence fuel r
    let (others, r) := alternatives fuel r
    (if others.isEmpty then first else .alternative (first :: others), r)

/-- The sequences behind the bars. -/
def alternatives : Nat → Reading → List Expression × Reading
  | 0, r => ([], r)
  | fuel + 1, r =>
    if r.current.kind = .sign '|' then
      let (e, r) := sequence fuel r.next
      let (es, r) := alternatives fuel r
      (e :: es, r)
    else ([], r)

/-- Terms one after another, at least one. -/
def sequence : Nat → Reading → Expression × Reading
  | 0, r => (.nothing, r)
  | fuel + 1, r =>
    match terms fuel r with
    | ([], r) => (.bad r.current.place, r.complainExpected "term")
    | ([e], r) => (e, r)
    | (es, r) => (.sequence es, r)

/-- As many terms as there are. -/
def terms : Nat → Reading → List Expression × Reading
  | 0, r => ([], r)
  | fuel + 1, r =>
    match term fuel r with
    | (none, r) => ([], r)
    | (some e, r) =>
      let (es, r) := terms fuel r
      (e :: es, r)

/-- A term, if the current token starts one. -/
def term : Nat → Reading → Option Expression × Reading
  | 0, r => (none, r)
  | fuel + 1, r =>
    let place := r.current.place
    match r.current.kind with
    | .ident => (some (.name place (Glyph.text r.current.text)), r.next)
    | .string | .rawString =>
      if r.next.current.kind = ellipsis then (some (.range place), rangeEnd r.next.next)
      else (some (.token place (literalValue r.current)), r.next)
    | .sign '(' =>
      let (e, r) := expression fuel r.next
      (some (.group e), r.expect (.sign ')'))
    | .sign '[' =>
      let (e, r) := expression fuel r.next
      (some (.option e), r.expect (.sign ']'))
    | .sign '\x7b' =>
      let (e, r) := expression fuel r.next
      (some (.repetition place e), r.expect (.sign '\x7d'))
    | _ => (none, r)

end

/-- The nesting that a number of remaining tokens allows: a token is taken after at most four calls. -/
def Reading.fuel (r : Reading) : Nat :=
  4 * r.rest.length + 8

/-- One production. Whatever token stands first is taken for its name. -/
def production (r : Reading) : Production × Reading :=
  let place := r.current.place
  let name := Glyph.text r.current.text
  let r := (r.expect .ident).expect (.sign '=')
  let (body, r) :=
    if r.current.kind = .sign '.' then (.nothing, r) else expression r.fuel r
  (⟨place, name, body⟩, r.expect (.sign '.'))

/-- Productions up to the end of the text; the first production of a name counts. -/
def productions : Nat → List Production → Reading → List Production × Reading
  | 0, known, r => (known, r)
  | count + 1, known, r =>
    if r.current.kind = .eof then (known, r)
    else
      let (p, r) := production r
      if known.any fun q => q.name = p.name then
        productions count known (r.complain p.place (p.name ++ " declared already"))
      else productions count (known ++ [p]) r

/-- The productions of a token list, or the complaints about it in the order of the text. -/
def ofTokens (tokens : List Token) : Except Fault (List Production) :=
  match tokens with
  | [] => .ok []
  | t :: ts =>
    let (ps, r) := productions (ts.length + 1) [] ⟨t, ts, []⟩
    if r.complaints.isEmpty then .ok ps else .error (.complaints r.complaints.reverse)

/-- The productions of a text, or the complaints about it. -/
def parse (filename : String) (text : List Glyph) : Except Fault (List Production) :=
  ofTokens (tokenize filename text).list

end Ebnf
end LetterGrammar
