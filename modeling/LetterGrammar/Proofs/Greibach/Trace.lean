import LetterGrammar.Proofs.Greibach.Events
import LetterGrammar.Proofs.Greibach.Shape
import LetterGrammar.Proofs.Lines

/-!
# The trace of a conversion

The text of a trace is cut into its lines again, as names and bodies are made of letters. Headings,
indented lines and pruning lines are told apart by how they start, so that the lines of the substitution
and of the pruning can be found in the text and compared with the result.

## Contents

- **`Event.written`**: the line of an event.
- **`linesUnder`**, **`pruneLines`**: the lines of a phase, and those of the pruning.
- **`linesUnder_traceLines`**, **`pruneLines_traceLines`**: where they stand in a trace.
- **`Faithful`**, **`Phases.faithful`**: what the trace of a run tells of its result.
- **`toGreibach_trace_faithful`**: the trace of a conversion is faithful and does not interfere.
-/

namespace LetterGrammar

open Conversion

/-! ## Lines -/

namespace Event

/-- The line of an event, without its end. -/
def written : Event → String
  | assigningRanks => "assign ranks"
  | renamed old new => "  " ++ old.text ++ " -> " ++ new.text
  | eliminatingRecursion => "eliminate left recursion"
  | rules nt bodies => "  " ++ nt.text ++ ": " ++ String.intercalate " | " (bodies.map Body.text)
  | fresh nt aux => "  " ++ nt.text ++ ": new nonterminal " ++ aux.text
  | substitutingLeading => "substitute leading nonterminals"
  | pruned nt => "prune " ++ nt.text

theorem line_eq (e : Event) : e.line = e.written ++ "\n" := by
  cases e <;> rfl

theorem text_eq_writeLines (events : List Event) : text events = writeLines (events.map written) := by
  unfold text writeLines
  rw [List.map_map]
  exact congrArg String.join (List.map_congr_left fun e _ => line_eq e)

end Event

/-- The line belongs inside a phase. -/
def indented (line : String) : Bool := line.toList.head? == some ' '

/-- The indented lines right below a heading. -/
def linesUnder (heading : String) (lines : List String) : List String :=
  ((lines.dropWhile (· != heading)).drop 1).takeWhile indented

/-- The lines that tell of the pruning. -/
def pruneLines (lines : List String) : List String :=
  lines.filter fun line => "prune ".toList.isPrefixOf line.toList

/-- The lines below a heading end where the first line is not indented. -/
theorem linesUnder_append {heading : String} {above inner below : List String} (habove : heading ∉ above)
    (hinner : ∀ line ∈ inner, indented line = true) (hbelow : ∀ line ∈ below, indented line = false) :
    linesUnder heading (above ++ heading :: (inner ++ below)) = inner := by
  have hskip : ∀ line ∈ above, (line != heading) = true := by
    intro line hline
    rw [bne_iff_ne]
    exact fun heq => habove (heq ▸ hline)
  -- all lines below stop the reading, so the first of them does
  have hend : below.takeWhile indented = [] := by
    cases below with
    | nil => rfl
    | cons line below => rw [List.takeWhile_cons_of_neg (by simp [hbelow line List.mem_cons_self])]
  unfold linesUnder
  rw [List.dropWhile_append_of_pos hskip, List.dropWhile_cons_of_neg (by simp), List.drop_one,
    List.tail_cons, List.takeWhile_append_of_pos hinner, hend, List.append_nil]

namespace Event

theorem indented_rules (nt : Symbol) (bodies : List Body) :
    indented (rules nt bodies).written = true := by
  simp [indented, written]

theorem indented_pruned (nt : Symbol) : indented (pruned nt).written = false := by
  simp [indented, written]

/-- The line of an event over letters is one line. -/
theorem Early.no_line_end {e : Event} (h : e.Early) : '\n' ∉ e.written.toList := by
  have hletter : ∀ {s : Symbol}, s.IsLetter → '\n' ≠ s.toChar := fun hs => hs.ne_toChar (by decide)
  cases h with
  | assigningRanks => decide
  | renamed hold hnew => simp [written, hletter hold, hletter hnew]
  | eliminatingRecursion => decide
  | @rules nt bodies hnt hbodies =>
      have hjoined : '\n' ∉ (String.intercalate " | " (bodies.map Body.text)).toList := by
        refine not_mem_intercalate (by decide) (List.forall_mem_map.mpr ?_)
        intro b hb
        rw [Body.toList_text]
        exact Body.not_mem_chars (hbodies b hb) (by decide)
      unfold written
      rw [String.toList_append, List.mem_append, not_or]
      exact ⟨by simp [hletter hnt], hjoined⟩
  | fresh hnt haux => simp [written, hletter hnt, hletter haux]

theorem no_line_end_pruned {nt : Symbol} (h : nt.IsLetter) : '\n' ∉ (pruned nt).written.toList := by
  have hletter : '\n' ≠ nt.toChar := h.ne_toChar (by decide)
  simp [written, hletter]

/-- An early line is told from the heading of the substitution by its first sign. -/
theorem Early.ne_heading {e : Event} (h : e.Early) : e.written ≠ substitutingLeading.written := by
  intro heq
  have hfirst : e.written.toList.head? = some 's' := by
    rw [heq]
    rfl
  cases h <;> simp [written] at hfirst

theorem Early.not_prune {e : Event} (h : e.Early) :
    "prune ".toList.isPrefixOf e.written.toList = false := by
  cases h <;> simp [written, List.isPrefixOf]

theorem prune_pruned (nt : Symbol) : "prune ".toList.isPrefixOf (pruned nt).written.toList = true := by
  simp [written, List.isPrefixOf]

end Event

/-- The lines of early events, the heading of the substitution with the rules under it, the pruned
    nonterminals, and what stands behind the last line end. -/
def traceLines (early rules : List Event) (nts : List Symbol) : List String :=
  early.map Event.written ++ Event.substitutingLeading.written ::
    (rules.map Event.written ++ (nts.map (fun nt => (Event.pruned nt).written) ++ [""]))

/-- The lines under the heading of the substitution are those of the rules. -/
theorem linesUnder_traceLines {early : List Event} (hearly : ∀ e ∈ early, e.Early)
    (bodies : Symbol → List Body) (visits nts : List Symbol) :
    linesUnder Event.substitutingLeading.written
        (traceLines early (visits.map fun nt => .rules nt (bodies nt)) nts) =
      visits.map fun nt => (Event.rules nt (bodies nt)).written := by
  have habove : Event.substitutingLeading.written ∉ early.map Event.written := by
    intro hmem
    obtain ⟨e, he, heq⟩ := List.mem_map.mp hmem
    exact (hearly e he).ne_heading heq
  have hbelow : ∀ line ∈ nts.map (fun nt => (Event.pruned nt).written) ++ [""], indented line = false := by
    refine List.forall_mem_append.mpr ⟨List.forall_mem_map.mpr ?_, ?_⟩
    · exact fun nt _ => Event.indented_pruned nt
    · exact List.forall_mem_singleton.mpr (by decide)
  unfold traceLines
  rw [List.map_map]
  exact linesUnder_append habove (List.forall_mem_map.mpr fun nt _ => Event.indented_rules nt _) hbelow

/-- The pruning lines are those of the pruned nonterminals. -/
theorem pruneLines_traceLines {early rules : List Event} (hearly : ∀ e ∈ early, e.Early)
    (hrules : ∀ e ∈ rules, e.Early) (nts : List Symbol) :
    pruneLines (traceLines early rules nts) = nts.map fun nt => (Event.pruned nt).written := by
  have hnone : ∀ es : List Event, (∀ e ∈ es, e.Early) → pruneLines (es.map Event.written) = [] := by
    intro es hes
    refine List.filter_eq_nil_iff.mpr (List.forall_mem_map.mpr ?_)
    intro e he hprune
    rw [(hes e he).not_prune] at hprune
    cases hprune
  have hall : pruneLines (nts.map fun nt => (Event.pruned nt).written) =
      nts.map fun nt => (Event.pruned nt).written :=
    List.filter_eq_self.mpr (List.forall_mem_map.mpr fun nt _ => Event.prune_pruned nt)
  have hheading : pruneLines [Event.substitutingLeading.written] = [] := by decide
  have hlast : pruneLines [""] = [] := by decide
  unfold traceLines
  rw [List.append_cons]
  unfold pruneLines at *
  rw [List.filter_append, List.filter_append, List.filter_append, List.filter_append, hnone early hearly,
    hnone rules hrules, hall, hheading, hlast]
  simp

/-! ## What a trace tells of the result -/

/-- The lines tell of parts that came out of a run whose elimination left the state `mid`. -/
structure Faithful (mid : Conversion) (p : Parts) (lines : List String) : Prop where
  /-- In the phase that replaces leading nonterminals there is one line for each nonterminal, from the
      highest rank down and then from the last fresh letter back. For a nonterminal of the parts, it
      holds the bodies of the parts in some order. -/
  substituted : ∃ bodies : Symbol → List Body,
    linesUnder "substitute leading nonterminals" lines =
      (mid.ranked.reverse ++ mid.auxiliary.reverse).map (fun nt => (Event.rules nt (bodies nt)).written) ∧
    ∀ nt ∈ p.nonterminals, nt ∈ mid.heads ∧ ∃ found, p.rules? nt = some found ∧ (bodies nt).Perm found
  /-- The pruning lines name the other nonterminals, ranked ones first. -/
  pruned : pruneLines lines = ((mid.ranked ++ mid.auxiliary).filter fun nt => nt ∉ p.nonterminals).map
    fun nt => (Event.pruned nt).written

namespace Conversion.Phases

variable {g : Grammar} {mid last : Conversion} {r : Greibach} (h : Phases true g mid last r)
include h

/-- **The lines of a run**: those of early events, then one for each visit of the substitution, then those
    of the nonterminals that the result lacks. -/
theorem lines (hne : g.nonterminals ≠ []) :
    ∃ early : List Event, (∀ e ∈ early, e.Early) ∧
      textLines (Event.text (convert true g).events) =
        traceLines early ((mid.ranked.reverse ++ mid.auxiliary.reverse).map
            fun nt => .rules nt (last.rules.bodies nt))
          (mid.heads.filter fun nt => nt ∉ r.grammar.nonterminals) := by
  obtain ⟨early, hearly, hevents⟩ := h.events hne
  refine ⟨early, hearly, ?_⟩
  -- a name or a body with a line end in it would be cut in two
  have hlines : ∀ line ∈ (convert true g).events.map Event.written, '\n' ∉ line.toList := by
    rw [hevents]
    refine List.forall_mem_map.mpr (List.forall_mem_append.mpr ⟨?_, List.forall_mem_cons.mpr ⟨?_, ?_⟩⟩)
    · exact fun e he => (hearly e he).no_line_end
    · decide
    · refine List.forall_mem_append.mpr ⟨?_, List.forall_mem_map.mpr ?_⟩
      · exact fun e he => (h.rules_early e he).no_line_end
      · intro nt hnt
        exact Event.no_line_end_pruned (.inr (h.sound_last.heads_upper nt (List.mem_filter.mp hnt).1))
  rw [Event.text_eq_writeLines, textLines_writeLines hlines, hevents, ← h.left_out]
  simp only [traceLines, List.map_append, List.map_cons, List.map_map, List.append_assoc,
    List.cons_append, Function.comp_def]

/-- **The trace of a run tells of its result.** -/
theorem faithful (hne : g.nonterminals ≠ []) :
    Faithful mid r.grammar.toParts (textLines (Event.text (convert true g).events)) := by
  obtain ⟨early, hearly, hlines⟩ := h.lines hne
  rw [hlines]
  constructor
  · refine ⟨last.rules.bodies, linesUnder_traceLines hearly _ _ _, ?_⟩
    intro nt hnt
    refine ⟨?_, h.reported_bodies hnt⟩
    rw [h.nonterminals_eq] at hnt
    exact (List.mem_filter.mp hnt).1
  · exact pruneLines_traceLines hearly h.rules_early _

end Conversion.Phases

/-- **The trace is faithful and does not interfere.** Under settings that turn tracing on, a grammar in
    Chomsky form is converted to the same grammar, or fails with the same fault, as without settings. If
    it has nonterminals and is converted, let `mid` be the state that the elimination leaves, with the
    last letters for ranks and fresh letters below them. The lines under the heading of the substitution
    are one for each rank from the highest down, then one for each fresh letter from the last one back;
    those of nonterminals of the result hold their bodies in some order; and the pruning lines name the
    nonterminals of `mid` that the result lacks, ranked ones first. -/
theorem toGreibach_trace_faithful (c : Chomsky) (settings : List Setting)
    (hsettings : settings.foldlM (fun s change => change s) (⟨false⟩ : Settings) = .ok ⟨true⟩) :
    (c.toGreibach settings).result = (c.toGreibach []).result ∧
    ∀ r, (c.toGreibach settings).result = .ok r → c.grammar.nonterminals ≠ [] →
      ∃ mid, ((assign c.grammar.toParts).eliminate true).result = .ok mid ∧
        mid.ranked = lastLetters c.grammar.nonterminals.length ∧
        mid.auxiliary = lettersBelow c.grammar.nonterminals.length mid.auxiliary.length ∧
        Faithful mid r.grammar.toParts (textLines (Event.text (c.toGreibach settings).events)) := by
  have hresult : (c.toGreibach settings).result = (convert true c.grammar).result := by
    rw [Chomsky.toGreibach_result, hsettings]
    rfl
  have hevents : (c.toGreibach settings).events = (convert true c.grammar).events :=
    Traced.events_silently_bind hsettings _
  rw [hresult, hevents]
  constructor
  · exact convert_result_eq true false c.grammar
  · intro r hok hne
    obtain ⟨mid, last, hphases⟩ := exists_phases hne hok
    have hranked : mid.ranked = lastLetters c.grammar.nonterminals.length := hphases.sound_mid.ranked_eq
    have hauxiliary := hphases.sound_mid.auxiliary_eq
    rw [hranked, length_lastLetters] at hauxiliary
    exact ⟨mid, hphases.eliminated, hranked, hauxiliary, hphases.faithful hne⟩

/-- A run that takes a fresh letter and leaves out a ranked one. -/
theorem toGreibach_trace_faithful_leadOnly :
    ∃ r mid, (leadOnly.toGreibach [Setting.trace]).result = .ok r ∧
      ((assign leadOnly.grammar.toParts).eliminate true).result = .ok mid ∧
      mid.ranked = Body.ofText "XYZ" ∧ mid.auxiliary = Body.ofText "W" ∧
      Faithful mid r.grammar.toParts
        (textLines (Event.text (leadOnly.toGreibach [Setting.trace]).events)) := by
  have hne : leadOnly.grammar.nonterminals ≠ [] := by decide
  have hfresh : (((assign leadOnly.grammar.toParts).eliminate true).result.map auxiliary) =
      .ok (Body.ofText "W") := by rfl
  rcases leadOnly.convert_cases true with ⟨⟨r, hok⟩, _⟩ | ⟨_, hfull⟩
  · have hresult : (leadOnly.toGreibach [Setting.trace]).result = .ok r := hok
    obtain ⟨mid, hmid, hranked, _, hfaithful⟩ :=
      (toGreibach_trace_faithful leadOnly [Setting.trace] rfl).2 r hresult hne
    rw [hmid] at hfresh
    injection hfresh with hfresh
    exact ⟨r, mid, hresult, hmid, hranked, hfresh, hfaithful⟩
  · exact absurd hfull (by decide)

end LetterGrammar
