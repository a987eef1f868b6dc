import LetterGrammar.Proofs.Greibach.Assembly
import LetterGrammar.Proofs.Text

/-!
# The events of a conversion

A trace is kept beside a run and never looked at, so tracing changes no result. What is reported while
leading nonterminals are replaced is what ends up in the result: each nonterminal is visited once, so
its bodies at the visit are those of the last state, and the assembly only sorts them.

## Contents

- **`convert_result_eq`**: a conversion gives the same, traced or not.
- **`events_bind`**: the events of one computation after another.
- **`Event.Early`**, **`eliminateAll_early`**: what is reported before the substitution.
- **`bodies_substituteAll`**, **`substituteAll_events`**: the substitution reports the bodies it leaves.
- **`Phases.events`**: all events of a successful run.
- **`Phases.reported_bodies`**, **`Phases.left_out`**: what the events say of the result.
-/

namespace LetterGrammar

open Conversion

/-! ## Results with and without a trace -/

namespace Conversion

theorem unwind_result_eq (on on' : Bool) (c : Conversion) (nt : Symbol) :
    (unwind on c nt).result = (unwind on' c nt).result := by
  rw [unwind_result, unwind_result]

theorem eliminateAt_result_eq (on on' : Bool) (c : Conversion) (i : Nat) (nt : Symbol) :
    (eliminateAt on c i nt).result = (eliminateAt on' c i nt).result := by
  rw [eliminateAt_result, eliminateAt_result]
  simp only [unwind_result_eq on on']

theorem eliminateAll_result_eq (on on' : Bool) (c : Conversion) (l : List (Symbol × Nat)) :
    (eliminateAll on c l).result = (eliminateAll on' c l).result := by
  induction l generalizing c with
  | nil => rfl
  | cons e l ih =>
      obtain ⟨nt, i⟩ := e
      rw [eliminateAll_cons_result, eliminateAll_cons_result, eliminateAt_result_eq on on']
      simp only [ih]

theorem substituteAll_result_eq (on on' : Bool) (c : Conversion) (l : List Symbol) :
    (substituteAll on c l).result = (substituteAll on' c l).result := by
  induction l generalizing c with
  | nil => rfl
  | cons nt l ih =>
      rw [substituteAll_cons_result, substituteAll_cons_result]
      simp only [ih]

theorem assemble_result_eq (on on' : Bool) (c : Conversion) (terminals : List Symbol) :
    (assemble on c terminals).result = (assemble on' c terminals).result := by
  rw [assemble_result, assemble_result]

end Conversion

/-- **Tracing does not interfere**: a conversion gives the same grammar or fault, traced or not. -/
theorem convert_result_eq (on on' : Bool) (g : Grammar) :
    (convert on g).result = (convert on' g).result := by
  rw [convert_result, convert_result]
  simp only [eliminateAll_result_eq on on', substituteAll_result_eq on on', assemble_result_eq on on']

/-! ## Events of traced computations -/

namespace Traced

variable {α β : Type}

/-- After a success, the events of what follows are added. -/
theorem events_bind {x : Traced α} {a : α} (h : x.result = .ok a) (f : α → Traced β) :
    (x >>= f).events = x.events ++ (f a).events := by
  show (andThen x f).events = _
  unfold andThen
  rw [h]

theorem events_silently_bind {x : Except Fault α} {a : α} (h : x = .ok a) (f : α → Traced β) :
    (silently x >>= f).events = (f a).events := by
  have hresult : (silently x).result = .ok a := h
  rw [events_bind hresult]
  rfl

theorem events_report_bind (e : Event) (f : Unit → Traced β) :
    (report true e >>= f).events = e :: (f ()).events := rfl

end Traced

/-- The event may be reported before the substitution, and its symbols are letters. -/
inductive Event.Early : Event → Prop
  | assigningRanks : Early .assigningRanks
  | renamed {old new : Symbol} (hold : old.IsLetter) (hnew : new.IsLetter) : Early (.renamed old new)
  | eliminatingRecursion : Early .eliminatingRecursion
  | rules {nt : Symbol} {bodies : List Body} (hnt : nt.IsLetter)
      (hbodies : ∀ b ∈ bodies, ∀ s ∈ b, s.IsLetter) : Early (.rules nt bodies)
  | fresh {nt aux : Symbol} (hnt : nt.IsLetter) (haux : aux.IsLetter) : Early (.fresh nt aux)

namespace Conversion

open Traced RuleTable

theorem reportAll_events (events : List Event) : (reportAll true events).events = events := by
  induction events with
  | nil => rfl
  | cons e events ih =>
      rw [reportAll, events_report_bind, ih]

/-! ## The elimination -/

/-- A successful unwinding reports nothing, or the letter and both sets of bodies of its detour. -/
theorem unwind_events {c c' : Conversion} {nt : Symbol} (h : (unwind true c nt).result = .ok c') :
    (unwind true c nt).events = [] ∨
    (recursiveTails nt (c.rules.bodies nt) ≠ [] ∧ ∃ aux allocator,
      c.allocator.allocate = (.ok aux, allocator) ∧
      (unwind true c nt).events = [.fresh nt aux,
        .rules nt (Body.withSuffix (baseBodies nt (c.rules.bodies nt)) aux),
        .rules aux (Body.withSuffix (recursiveTails nt (c.rules.bodies nt)) aux)]) := by
  rcases unwind_ok_cases h with ⟨hrec, _⟩ | ⟨hrec, aux, allocator, halloc, _⟩
  · left
    unfold unwind
    dsimp only
    rw [if_pos (List.isEmpty_iff.mpr hrec)]
    rfl
  · refine Or.inr ⟨hrec, aux, allocator, halloc, ?_⟩
    have hsome : ¬ (recursiveTails nt (c.rules.bodies nt)).isEmpty = true :=
      fun he => hrec (List.isEmpty_iff.mp he)
    -- without a base body the unwinding would have failed
    have hbase : ¬ (baseBodies nt (c.rules.bodies nt)).isEmpty = true := by
      intro he
      rw [unwind_result, if_neg hsome, if_pos he] at h
      cases h
    unfold unwind
    dsimp only
    rw [if_neg hsome, if_neg hbase, halloc]
    rfl

namespace Sound

variable {terminals : List Symbol} {c₀ c c' : Conversion} {nt : Symbol}
variable (hs : Sound terminals c₀ c)
include hs

/-- The rules of a sound state are made of letters. -/
theorem rules_early (hnt : nt ∈ c.heads) : (Event.rules nt (c.rules.bodies nt)).Early := by
  refine .rules (.inr (hs.heads_upper nt hnt)) ?_
  intro b hb s hsb
  exact (hs.spelled nt b hb s hsb).imp (hs.terminals_lower s) (hs.heads_upper s)

/-- The events of an unwinding are early ones: its detour leads to a sound state. -/
theorem unwind_early (hnt : nt ∈ c.heads) (h : (Conversion.unwind true c nt).result = .ok c') :
    ∀ e ∈ (Conversion.unwind true c nt).events, e.Early := by
  rcases unwind_events h with hnone | ⟨hrec, aux, allocator, halloc, hevents⟩
  · rw [hnone]
    intro e he
    cases he
  · have hs' : Sound terminals c₀ (c.detoured nt aux allocator) := hs.detoured hnt hrec halloc
    obtain ⟨_, hupper, hnew, _⟩ := hs.allocated halloc
    have hne : nt ≠ aux := fun heq => hnew (heq ▸ hnt)
    have hmem : nt ∈ (c.detoured nt aux allocator).heads ∧ aux ∈ (c.detoured nt aux allocator).heads := by
      rw [heads_detoured]
      exact ⟨List.mem_append_left _ hnt, List.mem_append_right _ (List.mem_singleton.mpr rfl)⟩
    -- what is reported are the bodies that both nonterminals have after the detour
    have hold := hs'.rules_early hmem.1
    have hfresh := hs'.rules_early hmem.2
    unfold Conversion.detoured at hold hfresh
    rw [bodies_set_ne hne, bodies_set_self] at hold
    rw [bodies_set_self] at hfresh
    rw [hevents]
    intro e he
    simp only [List.mem_cons, List.not_mem_nil, or_false] at he
    rcases he with rfl | rfl | rfl
    · exact .fresh (.inr (hs.heads_upper nt hnt)) (.inr hupper)
    · exact hold
    · exact hfresh

/-- One step of the elimination reports early events only. -/
theorem eliminateAt_early {pre rest : List Symbol} (hr : c.ranked = pre ++ nt :: rest)
    (h : (Conversion.eliminateAt true c pre.length nt).result = .ok c') :
    ∀ e ∈ (Conversion.eliminateAt true c pre.length nt).events, e.Early := by
  have hnt : nt ∈ c.heads := mem_heads_of_mem_ranked (hr ▸ by simp)
  rw [eliminateAt_result, bind_eq_ok_iff] at h
  obtain ⟨bodies, hraise, hunwind⟩ := h
  have hs' : Sound terminals c₀ (c.replaced nt bodies) := hs.raise hr hraise
  have hrules := hs'.rules_early hnt
  rw [show (c.replaced nt bodies).rules.bodies nt = bodies from bodies_set_self ..] at hrules
  unfold Conversion.eliminateAt
  rw [events_silently_bind hraise, events_report_bind]
  exact List.forall_mem_cons.mpr ⟨hrules, hs'.unwind_early hnt hunwind⟩

/-- **The elimination reports early events only.** -/
theorem eliminateAll_early {pre rest : List Symbol} (hr : c.ranked = pre ++ rest)
    (h : (Conversion.eliminateAll true c (rest.zipIdx pre.length)).result = .ok c') :
    ∀ e ∈ (Conversion.eliminateAll true c (rest.zipIdx pre.length)).events, e.Early := by
  -- by induction on the ranks that are left, from one sound state to the next
  induction rest generalizing pre c with
  | nil =>
      intro e he
      cases he
  | cons nt rest ih =>
      rw [List.zipIdx_cons, eliminateAll_cons_result, bind_eq_ok_iff] at h
      obtain ⟨c₁, hat, hrest⟩ := h
      have hs₁ : Sound terminals c₀ c₁ := hs.eliminateAt hr hat
      have hr₁ : c₁.ranked = (pre ++ [nt]) ++ rest := by
        rw [hs₁.ranked_eq, ← hs.ranked_eq, hr, List.append_cons]
      have hlen : (pre ++ [nt]).length = pre.length + 1 := List.length_append
      rw [← hlen] at hrest
      rw [List.zipIdx_cons, Conversion.eliminateAll, events_bind hat, ← hlen]
      exact List.forall_mem_append.mpr ⟨hs.eliminateAt_early hr hat, ih hs₁ hr₁ hrest⟩

end Sound

/-! ## The substitution -/

/-- What rounds of replacement give has no body twice. -/
theorem settle_ok_nodup {lead : Symbol → Bool} {flaw? : Body → Option Fault} {stuck : Fault}
    {t : RuleTable} {rounds : Nat} {bs out : List Body}
    (h : settle lead flaw? stuck t rounds bs = .ok out) : out.Nodup := by
  induction rounds generalizing bs with
  | zero => cases h
  | succ rounds ih =>
      rw [settle_succ] at h
      split at h
      · cases h
      · split at h
        · exact ih h
        · injection h with h
          rw [← h]
          exact Body.distinct_nodup _

/-- A substitution leaves alone the nonterminals it does not visit. -/
theorem bodies_substituteAll {on : Bool} {c c' : Conversion} {l : List Symbol} {s : Symbol} (hsl : s ∉ l)
    (h : (substituteAll on c l).result = .ok c') : c'.rules.bodies s = c.rules.bodies s := by
  induction l generalizing c with
  | nil =>
      injection h with h
      rw [h]
  | cons nt l ih =>
      rw [substituteAll_cons_result, bind_eq_ok_iff] at h
      obtain ⟨bodies, _, hrest⟩ := h
      rw [ih (List.not_mem_of_not_mem_cons hsl) hrest]
      exact bodies_set_ne (List.ne_of_not_mem_cons hsl) bodies c.rules

/-- **The substitution reports the bodies it leaves**, each nonterminal once, in the order of the visits:
    what it replaced is not touched again. -/
theorem substituteAll_events {c c' : Conversion} {l : List Symbol} (hnd : l.Nodup)
    (h : (substituteAll true c l).result = .ok c') :
    (substituteAll true c l).events = l.map (fun nt => .rules nt (c'.rules.bodies nt)) ∧
      ∀ nt ∈ l, (c'.rules.bodies nt).Nodup := by
  induction l generalizing c with
  | nil => exact ⟨rfl, List.forall_mem_nil _⟩
  | cons nt l ih =>
      obtain ⟨hnew, hnd'⟩ := List.nodup_cons.mp hnd
      rw [substituteAll_cons_result, bind_eq_ok_iff] at h
      obtain ⟨bodies, hground, hrest⟩ := h
      -- the visits to come are of other nonterminals
      have hkept : c'.rules.bodies nt = bodies := by
        rw [bodies_substituteAll hnew hrest]
        exact bodies_set_self nt bodies c.rules
      obtain ⟨hevents, hdistinct⟩ := ih hnd' hrest
      constructor
      · rw [substituteAll, events_silently_bind hground, events_report_bind, List.map_cons, hkept]
        exact congrArg _ hevents
      · refine List.forall_mem_cons.mpr ⟨?_, hdistinct⟩
        rw [hkept]
        exact settle_ok_nodup hground

theorem heads_substituteAll {on : Bool} {c c' : Conversion} {l : List Symbol}
    (h : (substituteAll on c l).result = .ok c') : c'.heads = c.heads := by
  induction l generalizing c with
  | nil =>
      injection h with h
      rw [h]
  | cons nt l ih =>
      rw [substituteAll_cons_result, bind_eq_ok_iff] at h
      obtain ⟨bodies, _, hrest⟩ := h
      rw [ih hrest]
      rfl

/-! ## All events of a run -/

theorem assemble_events {c : Conversion} {terminals : List Symbol} {r : Greibach}
    (h : (assemble true c terminals).result = .ok r) :
    (assemble true c terminals).events = (c.heads.filter fun nt => !c.keeps nt).map .pruned := by
  rw [assemble_result, bind_eq_ok_iff] at h
  obtain ⟨built, hbuilt, _⟩ := h
  unfold assemble
  rw [events_bind (reportAll_result ..), reportAll_events, events_silently_bind hbuilt]
  exact List.append_nil _

/-- The bodies of a kept nonterminal in the result. -/
theorem rules?_result {c : Conversion} {terminals : List Symbol} {nt : Symbol}
    (h : nt ∈ c.heads.filter c.keeps) :
    (c.result terminals).rules? nt = some (Body.canonical (c.rules.bodies nt)) := by
  show ((c.heads.filter c.keeps).zip ((c.heads.filter c.keeps).map fun nt =>
    Body.canonical (c.rules.bodies nt))).lookup nt = _
  rw [← List.map_prod_left_eq_zip]
  exact List.lookup_graph _ h

namespace Phases

variable {g : Grammar} {mid last : Conversion} {r : Greibach} (h : Phases true g mid last r)
include h

theorem heads_last : last.heads = mid.heads := heads_substituteAll h.substituted

/-- **The events of a run**: early ones, then the bodies of the last state in the order of the visits,
    then what is left out. -/
theorem events (hne : g.nonterminals ≠ []) :
    ∃ early, (∀ e ∈ early, e.Early) ∧
      (convert true g).events = early ++ .substitutingLeading ::
        ((mid.ranked.reverse ++ mid.auxiliary.reverse).map
            (fun nt => .rules nt (last.rules.bodies nt)) ++
          (last.heads.filter fun nt => !last.keeps nt).map .pruned) := by
  have hp := g.wellFormed
  have hrenamed : ∀ e ∈ (newNames g.toParts).map fun e => Event.renamed e.1 e.2, e.Early := by
    intro e he
    obtain ⟨⟨old, new⟩, hmem, rfl⟩ := List.mem_map.mp he
    obtain ⟨hold, hnew⟩ := List.of_mem_zip hmem
    exact .renamed (.inr (hp.nonterminals_upper old hold)) (.inr (isUpper_of_mem_lastLetters hp hnew))
  have hr : (assign g.toParts).ranked = [] ++ (assign g.toParts).ranked := rfl
  have heliminated := (sound_assign g).eliminateAll_early hr h.eliminated
  refine ⟨.assigningRanks :: ((newNames g.toParts).map (fun e => Event.renamed e.1 e.2) ++
    .eliminatingRecursion :: (eliminateAll true (assign g.toParts)
      (assign g.toParts).ranked.zipIdx).events), ?_, ?_⟩
  · refine List.forall_mem_cons.mpr ⟨.assigningRanks, List.forall_mem_append.mpr ⟨hrenamed, ?_⟩⟩
    exact List.forall_mem_cons.mpr ⟨.eliminatingRecursion, heliminated⟩
  · unfold convert
    dsimp only
    rw [if_neg fun he => hne (List.isEmpty_iff.mp he), events_report_bind,
      events_bind (reportAll_result ..), reportAll_events, events_bind h.eliminated,
      events_bind h.substituted, assemble_events h.assembled]
    unfold eliminate substitute
    rw [events_report_bind, events_report_bind,
      (substituteAll_events h.sound_mid.substituted_nodup h.substituted).1]
    simp only [List.cons_append, List.append_assoc]

theorem nonterminals_eq : r.grammar.nonterminals = mid.heads.filter last.keeps := by
  rw [(assemble_ok h.assembled).1, ← h.heads_last]
  rfl

/-- The substitution reports the bodies that a kept nonterminal has in the result. -/
theorem reported_bodies {nt : Symbol} (hnt : nt ∈ r.grammar.nonterminals) :
    ∃ found, r.grammar.rules? nt = some found ∧ (last.rules.bodies nt).Perm found := by
  have hs := h.sound_last
  have hparts := (assemble_ok h.assembled).1
  rw [hparts] at hnt
  refine ⟨_, by rw [hparts]; exact rules?_result hnt, (Body.canonical_perm ?_ ?_).symm⟩
  · exact fun b hb => hs.isScalar (hs.spelled nt b hb)
  · -- a visited nonterminal was left with the outcome of rounds of replacement
    have hvisited : nt ∈ mid.ranked.reverse ++ mid.auxiliary.reverse := by
      rw [mem_substituted_iff, ← h.heads_last]
      exact (List.mem_filter.mp hnt).1
    exact (substituteAll_events h.sound_mid.substituted_nodup h.substituted).2 nt hvisited

/-- What is not kept is what the result lacks. -/
theorem left_out : (last.heads.filter fun nt => !last.keeps nt) =
    mid.heads.filter fun nt => nt ∉ r.grammar.nonterminals := by
  rw [h.nonterminals_eq, h.heads_last]
  apply List.filter_congr
  intro nt hnt
  simp [List.mem_filter, hnt]

/-- The visits of the substitution report rules over letters. -/
theorem rules_early : ∀ e ∈ (mid.ranked.reverse ++ mid.auxiliary.reverse).map
    (fun nt => Event.rules nt (last.rules.bodies nt)), e.Early := by
  refine List.forall_mem_map.mpr ?_
  intro nt hnt
  rw [mem_substituted_iff, ← h.heads_last] at hnt
  exact h.sound_last.rules_early hnt

end Phases

end Conversion

end LetterGrammar
