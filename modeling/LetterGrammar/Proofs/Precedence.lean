import LetterGrammar.Proofs.Validation

/-!
# Which broken rule is reported

Parts may break several rules at once, and validation reports one of them. The rules have an order, and
the reported rule is the first broken one, with one exception: the sets of bodies are looked through one
by one, each for being empty and for undeclared symbols, so of these two rules the one that the first
faulty set breaks is reported.

## Contents

- **`ruleOrder`**, **`Kind.earlier`**: the order of the rules.
- **`Parts.Breaks`**: a rule is broken somewhere in the parts.
- **`alphabet_test`**, **`setFault?_eq_some`**: what the tests find.
- **`exists_first_faulty_set`**: the scan of the sets stops at the first faulty one.
- **`Parts.Reports`**, **`Reports.unique`**: the rule to be reported.
- **`fault?_reports`**: a fault reports that rule.
- **`validation_reports_first_broken`**: a broken rule is reported, and which.
-/

namespace LetterGrammar

/-! ## The rules and their order -/

/-- The rules of well-formed grammars, in order. -/
def ruleOrder : List Kind :=
  [.invalidTerminals, .invalidNonterminals, .productionCountMismatch, .emptyProductionSet,
    .unknownSymbol, .nonGeneratingNonterminal]

/-- The rules before a rule. -/
def Kind.earlier (k : Kind) : List Kind := ruleOrder.takeWhile (· ≠ k)

namespace Parts

/-- Some body of the set holds an undeclared symbol. -/
def Strays (p : Parts) (bodies : List Body) : Prop :=
  ∃ b ∈ bodies, ∃ s ∈ b, s ∉ p.terminals ∧ s ∉ p.nonterminals

/-- The rule is broken somewhere in the parts. -/
def Breaks (p : Parts) : Kind → Prop
  | .invalidTerminals => ¬ ((∀ s ∈ p.terminals, s.isLower = true) ∧ p.terminals.Nodup)
  | .invalidNonterminals => ¬ ((∀ s ∈ p.nonterminals, s.isUpper = true) ∧ p.nonterminals.Nodup)
  | .productionCountMismatch => p.productions.length ≠ p.nonterminals.length
  | .emptyProductionSet => [] ∈ p.productions
  | .unknownSymbol => ∃ bodies ∈ p.productions, p.Strays bodies
  | .nonGeneratingNonterminal => ∃ nt ∈ p.nonterminals, ¬ p.Generating nt
  | _ => False

variable {p : Parts}

/-! ## The tests -/

/-- An alphabet passes when its symbols are different letters of the range. -/
theorem alphabet_test {only : List Char → Bool} {isIn : Symbol → Bool} {ss : List Symbol}
    (honly : only (Body.chars ss) = true ↔ ∀ s ∈ ss, isIn s = true)
    (hscalar : ∀ s, isIn s = true → s.IsScalar) :
    (!(only (Body.chars ss) && allDistinct (Body.chars ss))) = true ↔
      ¬ ((∀ s ∈ ss, isIn s = true) ∧ ss.Nodup) := by
  rw [Bool.not_eq_true', ← Bool.not_eq_true]
  refine not_congr ?_
  rw [Bool.and_eq_true, honly]
  exact and_congr_right fun hin => allDistinct_chars fun s hs => hscalar s (hin s hs)

theorem terminals_test :
    (!(lowerOnly (Body.chars p.terminals) && allDistinct (Body.chars p.terminals))) = true ↔
      p.Breaks .invalidTerminals :=
  alphabet_test lowerOnly_chars fun _ => Symbol.isScalar_of_isLower

theorem nonterminals_test :
    (!(upperOnly (Body.chars p.nonterminals) && allDistinct (Body.chars p.nonterminals))) = true ↔
      p.Breaks .invalidNonterminals :=
  alphabet_test upperOnly_chars fun _ => Symbol.isScalar_of_isUpper

/-- A set that does not pass is empty or holds an undeclared symbol. -/
theorem setFault?_eq_some {nt : Symbol} {bodies : List Body} {v : Violation}
    (h : p.setFault? nt bodies = some v) :
    (v.kind = .emptyProductionSet ∧ bodies = []) ∨ (v.kind = .unknownSymbol ∧ p.Strays bodies) := by
  unfold setFault? at h
  split at h
  · rename_i hempty
    injection h with h
    exact .inl ⟨by rw [← h]; rfl, List.isEmpty_iff.mp hempty⟩
  · split at h
    · rename_i s hfind
      injection h with h
      refine .inr ⟨by rw [← h]; rfl, ?_⟩
      obtain ⟨b, hb, hs⟩ := List.mem_flatten.mp (List.mem_of_find?_eq_some hfind)
      have hund : ¬ p.declares s = true := by simpa using List.find?_some hfind
      rw [declares_iff, not_or] at hund
      exact ⟨b, hb, s, hs, hund⟩
    · cases h

/-- Well-formed parts break none of the rules before the last. -/
theorem WellFormed.not_breaks (hp : p.WellFormed) :
    ∀ k ∈ Kind.earlier .nonGeneratingNonterminal, ¬ p.Breaks k := by
  show ∀ k ∈ [Kind.invalidTerminals, .invalidNonterminals, .productionCountMismatch,
    .emptyProductionSet, .unknownSymbol], ¬ p.Breaks k
  simp only [List.forall_mem_cons]
  refine ⟨?_, ?_, ?_, ?_, ?_, fun _ hk => absurd hk List.not_mem_nil⟩
  · exact fun hbad => hbad ⟨hp.terminals_lower, hp.terminals_nodup⟩
  · exact fun hbad => hbad ⟨hp.nonterminals_upper, hp.nonterminals_nodup⟩
  · exact fun hbad => hbad hp.count
  · exact fun hempty => hp.sets_nonempty [] hempty rfl
  · rintro ⟨bodies, hbodies, b, hb, s, hs, hterm, hnon⟩
    exact (hp.declared bodies hbodies b hb s hs).elim hterm hnon

/-- **The sets are looked through one by one**: a fault is that of the first faulty set. -/
theorem exists_first_faulty_set {v : Violation} (hcount : ¬ p.Breaks .productionCountMismatch)
    (h : (p.entries.findSome? fun e => p.setFault? e.1 e.2) = some v) :
    ∃ before bodies after, p.productions = before ++ bodies :: after ∧
      (∀ bs ∈ before, bs ≠ [] ∧ ¬ p.Strays bs) ∧
      ((v.kind = .emptyProductionSet ∧ bodies = []) ∨ (v.kind = .unknownSymbol ∧ p.Strays bodies)) := by
  obtain ⟨before, e, after, hsplit, hfault, hpass⟩ := List.findSome?_eq_some_iff.mp h
  have hsnd : p.entries.map Prod.snd = p.productions :=
    List.map_snd_zip (Nat.le_of_eq (Classical.not_not.mp hcount))
  refine ⟨before.map Prod.snd, e.2, after.map Prod.snd, ?_, ?_, setFault?_eq_some hfault⟩
  · rw [← hsnd, hsplit, List.map_append, List.map_cons]
  · refine List.forall_mem_map.mpr fun f hf => ?_
    obtain ⟨hne, hdeclared⟩ := setFault?_eq_none_iff.mp (hpass f hf)
    refine ⟨hne, ?_⟩
    rintro ⟨b, hb, s, hs, hterm, hnon⟩
    exact (hdeclared b hb s hs).elim hterm hnon

/-! ## The reported rule -/

/-- A rule is reported as the order says, except that an undeclared symbol hides the empty sets behind
    it. -/
structure Reports (p : Parts) (k : Kind) : Prop where
  broken : p.Breaks k
  first : ∀ j ∈ k.earlier, p.Breaks j → j = .emptyProductionSet ∧ k = .unknownSymbol
  /-- No set before the reported empty one holds an undeclared symbol. -/
  empty : k = .emptyProductionSet → ∃ before after, p.productions = before ++ [] :: after ∧
    ∀ bodies ∈ before, ¬ p.Strays bodies
  /-- No set up to the reported undeclared symbol is empty. -/
  unknown : k = .unknownSymbol → ∃ before bodies after, p.productions = before ++ bodies :: after ∧
    p.Strays bodies ∧ [] ∉ before

theorem mem_ruleOrder_of_breaks {k : Kind} (h : p.Breaks k) : k ∈ ruleOrder := by
  cases k with
  | notRegular | notChomsky | notGreibach | identifierSpaceExhausted | internalInvariant =>
    exact False.elim h
  | _ => decide

theorem eq_or_earlier : ∀ j ∈ ruleOrder, ∀ k ∈ ruleOrder, j = k ∨ j ∈ k.earlier ∨ k ∈ j.earlier := by
  decide

/-- The first faulty set is empty or holds an undeclared symbol, and not both. -/
theorem Reports.not_empty_and_unknown (he : p.Reports .emptyProductionSet)
    (hu : p.Reports .unknownSymbol) : False := by
  obtain ⟨before, after, hsplit, hpass⟩ := he.empty rfl
  obtain ⟨before', bodies, after', hsplit', hstray, hnone⟩ := hu.unknown rfl
  have hnotStray : ¬ p.Strays [] := fun ⟨_, hb, _⟩ => absurd hb List.not_mem_nil
  rcases List.append_eq_append_iff.mp (hsplit.symm.trans hsplit') with
    ⟨between, hbefore, hrest⟩ | ⟨between, hbefore, hrest⟩
  · -- the empty set comes first, or is the set that strays
    cases between with
    | nil =>
      obtain ⟨rfl, -⟩ := List.cons.inj hrest
      exact hnotStray hstray
    | cons set between =>
      obtain ⟨rfl, -⟩ := List.cons.inj hrest
      exact hnone (by rw [hbefore]; simp)
  · cases between with
    | nil =>
      obtain ⟨rfl, -⟩ := List.cons.inj hrest
      exact hnotStray hstray
    | cons set between =>
      obtain ⟨rfl, -⟩ := List.cons.inj hrest
      exact hpass bodies (by rw [hbefore]; simp) hstray

/-- Only one rule is reported. -/
theorem Reports.unique {j k : Kind} (hj : p.Reports j) (hk : p.Reports k) : j = k := by
  have horder := eq_or_earlier j (mem_ruleOrder_of_breaks hj.broken) k (mem_ruleOrder_of_breaks hk.broken)
  rcases horder with heq | hearlier | hearlier
  · exact heq
  · obtain ⟨rfl, rfl⟩ := hk.first j hearlier hj.broken
    exact (hj.not_empty_and_unknown hk).elim
  · obtain ⟨rfl, rfl⟩ := hj.first k hearlier hk.broken
    exact (hk.not_empty_and_unknown hj).elim

/-- Rules other than the two on sets are reported when they are the first that is broken. -/
theorem Reports.of_first {k : Kind} (hbroken : p.Breaks k) (hfirst : ∀ j ∈ k.earlier, ¬ p.Breaks j)
    (hempty : k ≠ .emptyProductionSet) (hunknown : k ≠ .unknownSymbol) : p.Reports k where
  broken := hbroken
  first := fun j hj hbreaks => absurd hbreaks (hfirst j hj)
  empty := fun h => absurd h hempty
  unknown := fun h => absurd h hunknown

/-- The two rules on sets are reported at the first faulty set. -/
theorem Reports.of_set {v : Violation} (hterm : ¬ p.Breaks .invalidTerminals)
    (hnon : ¬ p.Breaks .invalidNonterminals) (hcount : ¬ p.Breaks .productionCountMismatch)
    (h : (p.entries.findSome? fun e => p.setFault? e.1 e.2) = some v) : p.Reports v.kind := by
  have hrules : ∀ j ∈ [Kind.invalidTerminals, .invalidNonterminals, .productionCountMismatch],
      ¬ p.Breaks j := by
    simp only [List.forall_mem_cons]
    exact ⟨hterm, hnon, hcount, fun _ hj => absurd hj List.not_mem_nil⟩
  obtain ⟨before, bodies, after, hsplit, hpass, hfault⟩ := exists_first_faulty_set hcount h
  have hmem : bodies ∈ p.productions := by rw [hsplit]; exact List.mem_append_right _ List.mem_cons_self
  rcases hfault with ⟨hkind, rfl⟩ | ⟨hkind, hstray⟩
  · rw [hkind]
    exact {
      broken := hmem
      first := fun j hj hbreaks => absurd hbreaks (hrules j hj)
      empty := fun _ => ⟨before, after, hsplit, fun bs hbs => (hpass bs hbs).2⟩
      unknown := fun hk => by cases hk }
  · rw [hkind]
    exact {
      broken := ⟨bodies, hmem, hstray⟩
      first := by
        show ∀ j ∈ [Kind.invalidTerminals, .invalidNonterminals, .productionCountMismatch] ++
          [.emptyProductionSet], _
        refine List.forall_mem_append.mpr ⟨fun j hj hbreaks => absurd hbreaks (hrules j hj), ?_⟩
        exact List.forall_mem_singleton.mpr fun _ => ⟨rfl, rfl⟩
      empty := fun hk => by cases hk
      unknown := fun _ => ⟨before, bodies, after, hsplit, hstray, fun hnil => (hpass [] hnil).1 rfl⟩ }

/-- On well-formed parts only the last rule is left. -/
theorem WellFormed.reports {v : Violation} (hp : p.WellFormed) (h : p.fault? = some v) :
    p.Reports v.kind := by
  have hbad : ¬ ∀ nt ∈ p.nonterminals, p.Generating nt := by
    intro hgen
    rw [fault?_eq_none_iff.mpr ⟨hp, hgen⟩] at h
    cases h
  obtain ⟨before, nt, after, hsplit, -, hnt, hfault⟩ := hp.fault?_eq_some hbad
  have hmem : nt ∈ p.nonterminals := by rw [hsplit]; exact List.mem_append_right _ List.mem_cons_self
  have hkind : v.kind = .nonGeneratingNonterminal := by
    rw [h] at hfault
    injection hfault with hv
    rw [hv]
  rw [hkind]
  exact .of_first ⟨nt, hmem, hnt⟩ hp.not_breaks (by decide) (by decide)

/-- **What a fault reports.** The tests come one after the other, and each of them is met only when those
    before it passed. -/
theorem fault?_reports {v : Violation} (h : p.fault? = some v) : p.Reports v.kind := by
  have hfault := h
  unfold fault? at h
  split at h
  · rename_i hterm
    injection h with h
    rw [← h]
    refine .of_first (terminals_test.mp hterm) ?_ (by decide) (by decide)
    exact fun _ hj => absurd hj List.not_mem_nil
  · rename_i hterm
    split at h
    · rename_i hnon
      injection h with h
      rw [← h]
      refine .of_first (nonterminals_test.mp hnon) ?_ (by decide) (by decide)
      exact List.forall_mem_singleton.mpr (mt terminals_test.mpr hterm)
    · rename_i hnon
      split at h
      · rename_i hcount
        injection h with h
        rw [← h]
        refine .of_first hcount ?_ (by decide) (by decide)
        exact List.forall_mem_cons.mpr
          ⟨mt terminals_test.mpr hterm, List.forall_mem_singleton.mpr (mt nonterminals_test.mpr hnon)⟩
      · rename_i hcount
        split at h
        · rename_i w hsets
          injection h with h
          rw [← h]
          exact .of_set (mt terminals_test.mpr hterm) (mt nonterminals_test.mpr hnon) hcount hsets
        · rename_i hsets
          have hp : p.WellFormed := wellFormed_iff.mpr
            ⟨by simpa using hterm, by simpa using hnon, by simpa using hcount, hsets⟩
          exact hp.reports hfault

/-- Parts that break a rule have a fault. -/
theorem exists_fault_of_breaks {k : Kind} (h : p.Breaks k) : ∃ v, p.fault? = some v := by
  apply Option.ne_none_iff_exists'.mp
  intro hnone
  obtain ⟨hp, hgen⟩ := fault?_eq_none_iff.mp hnone
  cases k with
  | nonGeneratingNonterminal =>
    obtain ⟨nt, hnt, hbad⟩ := h
    exact hbad (hgen nt hnt)
  | invalidTerminals | invalidNonterminals | productionCountMismatch | emptyProductionSet
  | unknownSymbol => exact hp.not_breaks _ (by decide) h
  | notRegular | notChomsky | notGreibach | identifierSpaceExhausted | internalInvariant => exact h

end Parts

/-- **Validation reports the first broken rule**, in the order of the rules, whenever a rule is broken.
    The one exception is between the two rules on sets of bodies: of them the one is reported that the
    first faulty set breaks, so an undeclared symbol hides the empty sets behind it. -/
theorem validation_reports_first_broken (p : Parts) {k : Kind} (h : p.Breaks k) :
    ∃ v, Grammar.build p = .error (.violation v) ∧ ∀ j, p.Reports j ↔ j = v.kind := by
  obtain ⟨v, hv⟩ := Parts.exists_fault_of_breaks h
  have hreports := Parts.fault?_reports hv
  refine ⟨v, Grammar.build_of_fault?_eq_some hv, fun j => ⟨fun hj => hj.unique hreports, ?_⟩⟩
  rintro rfl
  exact hreports

/-- An undeclared symbol in the first set, and an empty second set. -/
def strayBeforeEmpty : Parts where
  terminals := Body.ofText "a"
  nonterminals := Body.ofText "SA"
  productions := [[Body.ofText "b"], []]

theorem validation_reports_first_broken_stray :
    strayBeforeEmpty.Breaks .emptyProductionSet ∧
      ∃ v, Grammar.build strayBeforeEmpty = .error (.violation v) ∧
        ∀ j, strayBeforeEmpty.Reports j ↔ j = v.kind := by
  have hempty : strayBeforeEmpty.Breaks .emptyProductionSet := .tail _ (.head _)
  exact ⟨hempty, validation_reports_first_broken strayBeforeEmpty hempty⟩

/-- The empty set is not reported, although its rule comes first. -/
theorem stray_hides_empty_set :
    strayBeforeEmpty.Breaks .emptyProductionSet ∧
      Kind.emptyProductionSet ∈ Kind.earlier .unknownSymbol ∧
      Grammar.build strayBeforeEmpty =
        .error (.violation ⟨.unknownSymbol, some (.ofChar 'S'), some (.ofChar 'b')⟩) :=
  ⟨.tail _ (.head _), by decide, Grammar.build_of_fault?_eq_some (by decide)⟩

end LetterGrammar
