import LetterGrammar.Grammar.Basic

/-!
# Listings

A listing is the printed table of a grammar: a header with the class of the grammar, its form and its
alphabets, then one line per production. Listings are written piece by piece, the header being one
piece and every production another, so that a reader of a broken output knows where it stopped.

## Contents

- **`Labels`**: the words of a listing.
- **`Listing.header`**, **`Listing.productionLine`**, **`Listing.pieces`**: the pieces.
- **`Grammar.listing`**: the listing with the default labels.
- **`deliver`**: pieces handed to a writer that may stop.
-/

namespace LetterGrammar

/-- The words used in a listing. -/
structure Labels where
  grammar : String
  regular : String
  contextFree : String
  noForm : String
  chomsky : String
  greibach : String
  terminals : String
  nonterminals : String
  productions : String
  /-- Printed in place of an empty body. -/
  empty : String
deriving DecidableEq, Repr

/-- The English labels. -/
def Labels.english : Labels where
  grammar := "Grammar"
  regular := "regular"
  contextFree := "context-free"
  noForm := "-"
  chomsky := "Chomsky"
  greibach := "Greibach"
  terminals := "Terminals"
  nonterminals := "Nonterminals"
  productions := "Productions"
  empty := "ε"

/-- The Polish labels. -/
def Labels.polish : Labels where
  grammar := "Gramatyka"
  regular := "regularna"
  contextFree := "bezkontekstowa"
  noForm := "-"
  chomsky := "Chomskiego"
  greibach := "Greibach"
  terminals := "Terminale"
  nonterminals := "Nieterminale"
  productions := "Produkcje"
  empty := "&"

namespace Listing

/-- The name of a form in a listing: only the two normal forms have one. -/
def formLabel (labels : Labels) : Form → String
  | .chomsky => labels.chomsky
  | .greibach => labels.greibach
  | _ => labels.noForm

/-- The four header lines. -/
def header (labels : Labels) (form : Form) (g : Grammar) : String :=
  labels.grammar ++ ": " ++ (if g.regular then labels.regular else labels.contextFree) ++ "/"
  ++ formLabel labels form ++ "\n"
  ++ labels.terminals ++ ": " ++ Body.text g.terminals ++ "\n"
  ++ labels.nonterminals ++ ": " ++ Body.text g.nonterminals ++ "\n"
  ++ labels.productions ++ ":\n"

/-- The line of one production. -/
def productionLine (labels : Labels) (nt : Symbol) (b : Body) : String :=
  nt.text ++ " -> " ++ (if b.isEmpty then labels.empty else b.text) ++ "\n"

/-- The pieces of a listing, in order. -/
def pieces (labels : Labels) (form : Form) (g : Grammar) : List String :=
  header labels form g :: g.entries.flatMap fun e => e.2.map (productionLine labels e.1)

/-- The whole listing. -/
def text (labels : Labels) (form : Form) (g : Grammar) : String :=
  String.join (pieces labels form g)

end Listing

/-- The English listing of a grammar said to have the form. -/
def Grammar.listing (g : Grammar) (form : Form) : String :=
  Listing.text Labels.english form g

/-- Hands pieces to a writer that takes at most `limit` of them. The error is what was taken before the
    writer stopped. -/
def deliver (limit : Option Nat) (pieces : List String) : Except String String :=
  match limit with
  | none => .ok (String.join pieces)
  | some n =>
    if n < pieces.length then .error (String.join (pieces.take n)) else .ok (String.join pieces)

end LetterGrammar
