import LetterGrammar.Fault

/-!
# The trace of a conversion

A conversion can report its steps. A traced computation collects events and may fail; the events
collected before a failure stay.

## Contents

- **`Event`**, **`Event.line`**: a step, and its line in the trace.
- **`Traced`**: computations with events, a monad.
- **`report`**: one event, if tracing is on.
-/

namespace LetterGrammar

/-- A step of a conversion worth reporting. -/
inductive Event
  /-- The phase that gives the nonterminals their ranks begins. -/
  | assigningRanks
  /-- A nonterminal got a new letter. -/
  | renamed (old new : Symbol)
  /-- The phase that removes left recursion begins. -/
  | eliminatingRecursion
  /-- A nonterminal has these bodies now. -/
  | rules (nt : Symbol) (bodies : List Body)
  /-- The left recursion of a nonterminal moved to a fresh one. -/
  | fresh (nt aux : Symbol)
  /-- The phase that replaces leading nonterminals begins. -/
  | substitutingLeading
  /-- An unreachable nonterminal is left out. -/
  | pruned (nt : Symbol)
deriving DecidableEq, Repr

/-- The line of an event. Lines inside a phase are indented. -/
def Event.line : Event → String
  | assigningRanks => "assign ranks\n"
  | renamed old new => "  " ++ old.text ++ " -> " ++ new.text ++ "\n"
  | eliminatingRecursion => "eliminate left recursion\n"
  | rules nt bodies =>
    "  " ++ nt.text ++ ": " ++ String.intercalate " | " (bodies.map Body.text) ++ "\n"
  | fresh nt aux => "  " ++ nt.text ++ ": new nonterminal " ++ aux.text ++ "\n"
  | substitutingLeading => "substitute leading nonterminals\n"
  | pruned nt => "prune " ++ nt.text ++ "\n"

/-- The text of a trace. -/
def Event.text (events : List Event) : String :=
  String.join (events.map Event.line)

/-- A computation that reports events and may fail. -/
structure Traced (α : Type) where
  events : List Event
  result : Except Fault α

namespace Traced

/-- One computation after another: the events of both if the first succeeds, else those of the first. -/
def andThen {α β : Type} (x : Traced α) (f : α → Traced β) : Traced β :=
  match x.result with
  | .error e => ⟨x.events, .error e⟩
  | .ok a => ⟨x.events ++ (f a).events, (f a).result⟩

instance : Monad Traced where
  pure a := ⟨[], .ok a⟩
  bind := andThen

/-- A computation without events. -/
def silently {α : Type} (r : Except Fault α) : Traced α := ⟨[], r⟩

end Traced

/-- Reports one event, if tracing is on. -/
def report (on : Bool) (e : Event) : Traced Unit :=
  ⟨if on then [e] else [], .ok ()⟩

end LetterGrammar
