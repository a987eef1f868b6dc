import LetterGrammar.Native.Token

/-!
# Files in the native notation

A file is an optional declaration of terminals and a list of rules:

    terminals: ab ;
    S -> aS | b ;

## Contents

- **`File`**, **`Rule`**, **`RuleBody`**: what a file says.
- **`File.ofTokens`**: the file with given tokens, or the first token that does not fit.
- **`File.read`**: the file with a given text.
-/

namespace LetterGrammar
namespace Native

/-- One alternative of a rule. -/
inductive RuleBody
  | empty
  | symbols (text : String)
deriving DecidableEq, Repr

/-- The text of an alternative. -/
def RuleBody.text : RuleBody → String
  | empty => ""
  | symbols t => t

/-- A rule: its place, its head and its alternatives. -/
structure Rule where
  place : Position
  head : String
  bodies : List RuleBody
deriving DecidableEq, Repr

/-- A file: the place of its first token, the declared terminals if there is a declaration, and the
    rules. -/
structure File where
  place : Position
  declared : Option String
  rules : List Rule
deriving DecidableEq, Repr

/-! ## Reading tokens -/

/-- The complaint about the first of the remaining tokens, or about the end of the text. -/
def unexpected (last : Position) (tokens : List Token) (expected : String) : Fault :=
  match tokens with
  | [] => .located last ("unexpected token " ++ quote "<EOF>" ++ expected) none
  | t :: _ => .located t.place ("unexpected token " ++ quote t.text ++ expected) none

/-- What must follow the last alternative or the declared terminals. -/
def expectedEnd : String := " (expected \";\")"

/-- The alternative a token stands for. -/
def body? (t : Token) : Option RuleBody :=
  match t.kind with
  | .epsilon => some .empty
  | .ident => some (.symbols t.text)
  | _ => none

/-- The token is the given sign. -/
def Token.isSign (t : Token) (sign : String) : Bool :=
  t.kind = .punct && t.text = sign

/-- The alternatives after the first one, up to the semicolon, and the tokens after it. -/
def alternatives (last : Position) : List Token → Except Fault (List RuleBody × List Token)
  | [] => .error (unexpected last [] expectedEnd)
  | [t] => if t.isSign ";" then .ok ([], []) else .error (unexpected last [t] expectedEnd)
  | t :: u :: rest =>
    if t.isSign ";" then .ok ([], u :: rest)
    else if t.isSign "|" then
      match body? u with
      | none => .error (unexpected last (t :: u :: rest) expectedEnd)
      | some b =>
        match alternatives last rest with
        | .error f => .error f
        | .ok (bodies, after) => .ok (b :: bodies, after)
    else .error (unexpected last (t :: u :: rest) expectedEnd)

/-- Reading alternatives never adds tokens. -/
theorem alternatives_length_le {last : Position} {tokens : List Token} {bodies : List RuleBody}
    {after : List Token} (h : alternatives last tokens = .ok (bodies, after)) :
    after.length ≤ tokens.length := by
  fun_induction alternatives last tokens generalizing bodies after with
  | case1 => cases h
  | case2 => cases h; simp
  | case3 => cases h
  | case4 => cases h; simp
  | case5 => cases h
  | case6 => cases h
  | case7 t u rest _ _ b _ bs aft heq ih =>
    cases h
    have := ih heq
    simp only [List.length_cons]
    omega
  | case8 => cases h

/-- A rule at the head of the tokens, and the tokens after it. -/
def rule (last : Position) : List Token → Except Fault (Rule × List Token)
  | head :: arrow :: first :: rest =>
    if head.kind ≠ .ident then .error (unexpected last (head :: arrow :: first :: rest) "")
    else if arrow.kind ≠ .arrow then
      .error (unexpected last (arrow :: first :: rest)
        " (expected <arrow> Body (\"|\" Body)* \";\")")
    else
      match body? first with
      | none => .error (unexpected last (first :: rest) " (expected Body (\"|\" Body)* \";\")")
      | some b =>
        match alternatives last rest with
        | .error f => .error f
        | .ok (bodies, after) => .ok (⟨head.place, head.text, b :: bodies⟩, after)
  | [head, arrow] =>
    if head.kind ≠ .ident then .error (unexpected last [head, arrow] "")
    else if arrow.kind ≠ .arrow then
      .error (unexpected last [arrow] " (expected <arrow> Body (\"|\" Body)* \";\")")
    else .error (unexpected last [] " (expected Body (\"|\" Body)* \";\")")
  | [head] =>
    if head.kind ≠ .ident then .error (unexpected last [head] "")
    else .error (unexpected last [] " (expected <arrow> Body (\"|\" Body)* \";\")")
  | [] => .error (unexpected last [] "")

/-- A rule takes at least one token. -/
theorem rule_length_lt {last : Position} {tokens : List Token} {r : Rule} {after : List Token}
    (h : rule last tokens = .ok (r, after)) : after.length < tokens.length := by
  unfold rule at h
  split at h
  · split at h
    · cases h
    split at h
    · cases h
    split at h
    · cases h
    split at h
    · cases h
    · next heq =>
      cases h
      have := alternatives_length_le heq
      simp only [List.length_cons]
      omega
  · split at h
    · cases h
    split at h <;> cases h
  · split at h <;> cases h
  · cases h

/-- All rules of the tokens. -/
def rules (last : Position) (tokens : List Token) : Except Fault (List Rule) :=
  match tokens with
  | [] => .ok []
  | t :: ts =>
    match _h : rule last (t :: ts) with
    | .error f => .error f
    | .ok (r, after) =>
      match rules last after with
      | .error f => .error f
      | .ok rs => .ok (r :: rs)
termination_by tokens.length
decreasing_by exact rule_length_lt (by assumption)

/-- The identifier that lists the declared terminals, which may be missing, and the tokens after it. -/
def declaredSymbols (tokens : List Token) : String × List Token :=
  match tokens with
  | t :: rest => if t.kind = .ident then (t.text, rest) else ("", t :: rest)
  | [] => ("", [])

/-- The declaration of terminals at the head of the tokens, if there is one, and the tokens after it. -/
def declaration (last : Position) (tokens : List Token) :
    Except Fault (Option String × List Token) :=
  match tokens with
  | word :: colon :: rest =>
    if word.kind = .ident && word.text = "terminals" && colon.isSign ":" then
      let (symbols, after) := declaredSymbols rest
      match after with
      | t :: ts =>
        if t.isSign ";" then .ok (some symbols, ts) else .error (unexpected last after expectedEnd)
      | [] => .error (unexpected last [] expectedEnd)
    else .ok (none, tokens)
  | _ => .ok (none, tokens)

namespace File

/-- The file with the given tokens, of a text that ends at `last`. -/
def ofTokens (tokens : List Token) (last : Position) : Except Fault File :=
  let place := match tokens with
    | [] => last
    | t :: _ => t.place
  match declaration last tokens with
  | .error f => .error f
  | .ok (declared, after) =>
    match Native.rules last after with
    | .error f => .error f
    | .ok rs => .ok ⟨place, declared, rs⟩

/-- The file with the given text. -/
def read (filename : String) (text : List Glyph) : Except Fault File :=
  match tokenize (.start filename) text with
  | .error f => .error f
  | .ok (tokens, last) => ofTokens (tokens.filter Token.isSignificant) last

end File

end Native
end LetterGrammar
