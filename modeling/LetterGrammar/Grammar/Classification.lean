import LetterGrammar.Grammar.Basic

/-!
# Classification of grammars

Which forms a grammar has, and grammars that carry the evidence of a form.

## Contents

- **`Parts.linearity`**: the orientation of the bodies of two symbols.
- **`Parts.isRegular`**, **`Parts.isChomsky`**, **`Parts.isGreibach`**: the forms, body by body.
- **`Chomsky`**, **`Greibach`**: grammars verified to have the form.
-/

namespace LetterGrammar

/-! ## Linearity -/

/-- The orientation of a grammar that has bodies of both orientations. -/
def Linearity.join : Linearity → Linearity → Linearity
  | .none, l => l
  | l, .none => l
  | .right, .right => .right
  | .left, .left => .left
  | _, _ => .mixed

namespace Parts

/-- A terminal followed by a nonterminal. -/
def isRightPair (p : Parts) : Body → Bool
  | [x, y] => p.isTerminal x && p.isNonterminal y
  | _ => false

/-- A nonterminal followed by a terminal. -/
def isLeftPair (p : Parts) : Body → Bool
  | [x, y] => p.isNonterminal x && p.isTerminal y
  | _ => false

/-- The orientation of a single body. -/
def orientation (p : Parts) (b : Body) : Linearity :=
  if p.isRightPair b then .right else if p.isLeftPair b then .left else .none

/-- The orientation of the whole grammar: a right-linear body of one nonterminal and a left-linear body
    of another make it mixed. -/
def linearity (p : Parts) : Linearity :=
  p.productions.flatten.foldl (fun l b => l.join (p.orientation b)) .none

/-! ## Forms -/

/-- A body of a regular grammar: empty, a terminal, or a terminal paired with a nonterminal. -/
def isRegularBody (p : Parts) : Body → Bool
  | [] => true
  | [x] => p.isTerminal x
  | b => p.isRightPair b || p.isLeftPair b

/-- Every body is that of a regular grammar, and all pairs share one orientation. -/
def isRegular (p : Parts) : Bool :=
  p.productions.flatten.all p.isRegularBody && p.linearity ≠ .mixed

/-- A body in Chomsky form: a terminal, or two nonterminals. -/
def isChomskyBody (p : Parts) : Body → Bool
  | [x] => p.isTerminal x
  | [x, y] => p.isNonterminal x && p.isNonterminal y
  | _ => false

/-- Every body is in Chomsky form. -/
def isChomsky (p : Parts) : Bool :=
  p.productions.flatten.all p.isChomskyBody

/-- A body in Greibach form: a terminal followed by nonterminals. -/
def isGreibachBody (p : Parts) : Body → Bool
  | [] => false
  | x :: rest => p.isTerminal x && rest.all p.isNonterminal

/-- Every body is in Greibach form. -/
def isGreibach (p : Parts) : Bool :=
  p.productions.flatten.all p.isGreibachBody

/-- The grammar has the form. -/
def has (p : Parts) : Form → Bool
  | .contextFree => true
  | .regular => p.isRegular
  | .chomsky => p.isChomsky
  | .greibach => p.isGreibach

end Parts

/-! ## Verified forms -/

/-- The grammar marked as regular, if it is. -/
def Grammar.asRegular (g : Grammar) : Except Fault Grammar :=
  if g.isRegular then .ok (g.withRegular true) else .error (.form .regular)

/-- A grammar in Chomsky form. -/
structure Chomsky where
  grammar : Grammar
  form : grammar.isChomsky = true

/-- The grammar as one in Chomsky form, if it is. A Chomsky grammar counts as context-free, so the
    regularity mark is cleared. -/
def Grammar.asChomsky (g : Grammar) : Except Fault Chomsky :=
  if h : g.isChomsky = true then .ok ⟨g.withRegular false, h⟩ else .error (.form .chomsky)

/-- A grammar in Greibach form. -/
structure Greibach where
  grammar : Grammar
  form : grammar.isGreibach = true

/-- The grammar as one in Greibach form, if it is. -/
def Grammar.asGreibach (g : Grammar) : Except Fault Greibach :=
  if h : g.isGreibach = true then .ok ⟨g, h⟩ else .error (.form .greibach)

end LetterGrammar
