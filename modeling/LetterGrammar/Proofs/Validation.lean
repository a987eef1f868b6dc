import LetterGrammar.Proofs.Rewriting

/-!
# What validation accepts

Parts form a grammar exactly when they are well-formed and every nonterminal derives a word. The tests
on alphabets and the generating test look at printed text and the others at codes; the two agree because
no code outside the letters prints as a letter. The generating test clears suspects in place, over and
over; what it leaves is a set of nonterminals each of whose bodies holds one of them, and such
nonterminals derive nothing.

## Contents

- **`Parts.WellFormed`**, **`Parts.Generating`**: the conditions on parts.
- **`lowerOnly_chars`**, **`upperOnly_chars`**, **`allDistinct_chars`**, **`holdsSuspect_iff`**: the tests
  on printed text.
- **`clearPass_spec`**, **`clearSuspects_spec`**: one pass, and all passes.
- **`nonGenerating?_eq_some`**: the check finds the nonterminals that derive no word.
- **`fault?_eq_none_iff`**: parts without a fault.
-/

namespace LetterGrammar

/-! ## Alphabets -/

namespace Symbol

/-- A symbol prints as a letter of an ASCII range exactly when its code is in that range. -/
theorem toChar_mem_range_iff (s : Symbol) {lo hi : Char} (hlo : 0 < lo.toNat) (hhi : hi.toNat < 0xD800) :
    (lo ≤ s.toChar ∧ s.toChar ≤ hi) ↔ (lo.toNat : Int) ≤ s.code ∧ s.code ≤ hi.toNat := by
  obtain ⟨code⟩ := s
  have hrep : replacementChar.toNat = 0xFFFD := by decide
  have hle : ∀ c d : Char, c ≤ d ↔ c.toNat ≤ d.toNat := fun _ _ => Iff.rfl
  rw [hle, hle]
  cases code with
  | ofNat n =>
      show lo.toNat ≤ (if n.isValidChar then Char.ofNat n else replacementChar).toNat ∧
        (if n.isValidChar then Char.ofNat n else replacementChar).toNat ≤ hi.toNat ↔
          (lo.toNat : Int) ≤ (n : Int) ∧ (n : Int) ≤ hi.toNat
      by_cases hv : n.isValidChar
      · rw [if_pos hv, toNat_ofNat hv]
        omega
      · have hn : 0xD800 ≤ n := by
          apply Classical.byContradiction
          exact fun hlt => hv (Or.inl (by omega))
        rw [if_neg hv, hrep]
        omega
  | negSucc n =>
      show lo.toNat ≤ replacementChar.toNat ∧ replacementChar.toNat ≤ hi.toNat ↔
        (lo.toNat : Int) ≤ Int.negSucc n ∧ Int.negSucc n ≤ hi.toNat
      rw [hrep]
      omega

end Symbol

theorem lowerOnly_chars {ss : List Symbol} :
    lowerOnly (Body.chars ss) = true ↔ ∀ s ∈ ss, s.isLower = true := by
  simp only [lowerOnly, Body.chars, List.all_eq_true, List.forall_mem_map, Bool.and_eq_true,
    decide_eq_true_eq]
  have h : ∀ s : Symbol, ('a' ≤ s.toChar ∧ s.toChar ≤ 'z') ↔ s.isLower = true := fun s => by
    rw [s.toChar_mem_range_iff (by decide) (by decide), Symbol.isLower_iff]
    rfl
  exact ⟨fun hs s hm => (h s).mp (hs s hm), fun hs s hm => (h s).mpr (hs s hm)⟩

theorem upperOnly_chars {ss : List Symbol} :
    upperOnly (Body.chars ss) = true ↔ ∀ s ∈ ss, s.isUpper = true := by
  simp only [upperOnly, Body.chars, List.all_eq_true, List.forall_mem_map, Bool.and_eq_true,
    decide_eq_true_eq]
  have h : ∀ s : Symbol, ('A' ≤ s.toChar ∧ s.toChar ≤ 'Z') ↔ s.isUpper = true := fun s => by
    rw [s.toChar_mem_range_iff (by decide) (by decide), Symbol.isUpper_iff]
    rfl
  exact ⟨fun hs s hm => (h s).mp (hs s hm), fun hs s hm => (h s).mpr (hs s hm)⟩

/-- Characters print differently exactly when they differ. -/
theorem allDistinct_chars {ss : List Symbol} (h : ∀ s ∈ ss, s.IsScalar) :
    allDistinct (Body.chars ss) = true ↔ ss.Nodup := by
  rw [allDistinct, decide_eq_true_eq, Body.chars, List.Nodup, List.pairwise_map]
  constructor
  · exact fun hp => hp.imp fun hne heq => hne (congrArg Symbol.toChar heq)
  · intro hp
    exact hp.imp_of_mem fun ha hb hne heq => hne ((h _ ha).toChar_inj (h _ hb) heq)

/-- A suspect is found in a printed body of characters exactly when it is one of its symbols. -/
theorem holdsSuspect_iff {suspects : List Symbol} {b : Body} (h : b.IsScalar) :
    holdsSuspect suspects b = true ↔ ∃ s ∈ b, s ∈ suspects := by
  unfold holdsSuspect containsAny
  rw [Body.map_ofChar_chars h, List.any_eq_true]
  simp only [List.contains_iff_mem]

/-! ## The conditions -/

namespace Parts

/-- All conditions on the parts of a grammar but the last: alphabets of different letters, a set of
    bodies for each nonterminal, no set empty, and no symbol undeclared. -/
structure WellFormed (p : Parts) : Prop where
  terminals_lower : ∀ s ∈ p.terminals, s.isLower = true
  terminals_nodup : p.terminals.Nodup
  nonterminals_upper : ∀ s ∈ p.nonterminals, s.isUpper = true
  nonterminals_nodup : p.nonterminals.Nodup
  count : p.productions.length = p.nonterminals.length
  sets_nonempty : ∀ bs ∈ p.productions, bs ≠ []
  declared : ∀ bs ∈ p.productions, ∀ b ∈ bs, ∀ s ∈ b, s ∈ p.terminals ∨ s ∈ p.nonterminals

/-- The last condition, for one nonterminal: it derives a word. -/
def Generating (p : Parts) (nt : Symbol) : Prop :=
  ∃ w, RuleTable.Derives p.entries [nt] w

variable {p : Parts}

theorem heads_entries (h : p.productions.length = p.nonterminals.length) :
    RuleTable.heads p.entries = p.nonterminals := by
  unfold RuleTable.heads entries
  exact List.map_fst_zip (Nat.le_of_eq h.symm)

namespace WellFormed

variable (hp : p.WellFormed)
include hp

/-- The bodies of a nonterminal are the set at its position. -/
theorem bodies_eq {i : Nat} {nt : Symbol} {bs : List Body} (hnt : p.nonterminals[i]? = some nt)
    (hbs : p.productions[i]? = some bs) : RuleTable.bodies p.entries nt = bs := by
  refine RuleTable.bodies_eq_of_mem ?_ ?_
  · rw [heads_entries hp.count]
    exact hp.nonterminals_nodup
  · exact List.mem_of_getElem? (List.getElem?_zip_eq_some.mpr ⟨hnt, hbs⟩)

/-- Every nonterminal has a position, with a set of bodies there. -/
theorem exists_set {i : Nat} {nt : Symbol} (hnt : p.nonterminals[i]? = some nt) :
    ∃ bs, p.productions[i]? = some bs := by
  have hi : i < p.productions.length := by
    rw [hp.count]
    exact (List.getElem?_eq_some_iff.mp hnt).1
  exact ⟨p.productions[i], List.getElem?_eq_getElem hi⟩

/-- The bodies of any symbol form one of the sets, unless it has none. -/
theorem bodies_mem {s : Symbol} {b : Body} (hb : b ∈ RuleTable.bodies p.entries s) :
    ∃ bs ∈ p.productions, b ∈ bs := by
  have hs := RuleTable.mem_heads_of_mem_bodies hb
  rw [heads_entries hp.count] at hs
  obtain ⟨i, hi⟩ := List.getElem?_of_mem hs
  obtain ⟨bs, hbs⟩ := hp.exists_set hi
  rw [hp.bodies_eq hi hbs] at hb
  exact ⟨bs, List.mem_of_getElem? hbs, hb⟩

/-- Every symbol of a body is a terminal, or a nonterminal of the parts. -/
theorem body_symbol {s x : Symbol} {b : Body} (hb : b ∈ RuleTable.bodies p.entries s) (hx : x ∈ b) :
    x ∈ p.terminals ∨ x ∈ p.nonterminals := by
  obtain ⟨bs, hbs, hbb⟩ := hp.bodies_mem hb
  exact hp.declared bs hbs b hbb x hx

theorem nonterminal_not_lower {s : Symbol} (hs : s ∈ p.nonterminals) : s.isLower = false :=
  Symbol.isLower_eq_false_of_isUpper (hp.nonterminals_upper s hs)

/-- Bodies are made of letters, so they can be told from their characters. -/
theorem body_isScalar {s : Symbol} {b : Body} (hb : b ∈ RuleTable.bodies p.entries s) : b.IsScalar := by
  intro x hx
  rcases hp.body_symbol hb hx with ht | hn
  · exact Symbol.isScalar_of_isLower (hp.terminals_lower x ht)
  · exact Symbol.isScalar_of_isUpper (hp.nonterminals_upper x hn)

/-! ## The generating check -/

/-- A nonterminal with a body free of suspects is generating if all others are. -/
theorem generating_of_clear {suspects : List Symbol} {nt : Symbol} {b : Body}
    (hclear : ∀ s ∈ p.nonterminals, s ∉ suspects → p.Generating s)
    (hnt : nt ∈ p.nonterminals) (hb : b ∈ RuleTable.bodies p.entries nt)
    (hfree : holdsSuspect suspects b = false) : p.Generating nt := by
  have hsym : ∀ s ∈ b, s.isLower = true ∨ ∃ w, RuleTable.Derives p.entries [s] w := by
    intro s hs
    rcases hp.body_symbol hb hs with ht | hn
    · exact Or.inl (hp.terminals_lower s ht)
    · refine Or.inr (hclear s hn fun hsus => ?_)
      have hany := (holdsSuspect_iff (hp.body_isScalar hb)).mpr ⟨s, hs, hsus⟩
      rw [hfree] at hany
      exact Bool.noConfusion hany
  obtain ⟨w, hw⟩ := RuleTable.exists_derives hsym
  exact ⟨w, RuleTable.Derives.rule (hp.nonterminal_not_lower hnt) hb hw⟩

/-- **One pass.** It only clears suspects that are generating, and if it clears none, every body of
    every suspect it looked at holds a suspect. -/
theorem clearPass_spec (l : List (Symbol × Nat)) (hl : ∀ e ∈ l, p.nonterminals[e.2]? = some e.1)
    (suspects : List Symbol) (hclear : ∀ s ∈ p.nonterminals, s ∉ suspects → p.Generating s) :
    ∃ left, clearPass p.productions suspects l = some left ∧ left.Sublist suspects ∧
      (∀ s ∈ p.nonterminals, s ∉ left → p.Generating s) ∧
      (left.length = suspects.length → ∀ e ∈ l, e.1 ∈ suspects →
        ∀ b ∈ RuleTable.bodies p.entries e.1, holdsSuspect suspects b = true) := by
  induction l generalizing suspects with
  | nil => exact ⟨suspects, rfl, List.Sublist.refl _, hclear, fun _ e he => absurd he List.not_mem_nil⟩
  | cons e l ih =>
      obtain ⟨nt, i⟩ := e
      obtain ⟨hnt, hl'⟩ := List.forall_mem_cons.mp hl
      unfold clearPass
      by_cases hmem : suspects.contains nt = true
      · obtain ⟨bs, hbs⟩ := hp.exists_set hnt
        have hbodies := hp.bodies_eq hnt hbs
        rw [if_pos hmem, hbs]
        by_cases hall : bs.all (holdsSuspect suspects) = true
        · -- the suspect stays
          obtain ⟨left, hleft, hsub, hgen, hstuck⟩ := ih hl' suspects hclear
          refine ⟨left, by simp only [hall, if_true]; exact hleft, hsub, hgen, fun hlen e he => ?_⟩
          rcases List.mem_cons.mp he with rfl | he
          · intro _ b hb
            rw [hbodies] at hb
            exact List.all_eq_true.mp hall b hb
          · exact hstuck hlen e he
        · -- the suspect is cleared, so fewer are left
          obtain ⟨b, hb, hfree⟩ : ∃ b ∈ bs, holdsSuspect suspects b = false := by
            rw [List.all_eq_true] at hall
            simpa using hall
          have hgen_nt : p.Generating nt :=
            hp.generating_of_clear hclear (List.mem_of_getElem? hnt) (hbodies ▸ hb) hfree
          have hclear' : ∀ s ∈ p.nonterminals, s ∉ suspects.filter (· ≠ nt) → p.Generating s := by
            intro s hs hn
            by_cases hsn : s = nt
            · exact hsn ▸ hgen_nt
            · exact hclear s hs fun hm => hn (List.mem_filter.mpr ⟨hm, by simpa using hsn⟩)
          obtain ⟨left, hleft, hsub, hgen, _⟩ := ih hl' _ hclear'
          have hlt : (suspects.filter (· ≠ nt)).length < suspects.length :=
            List.length_filter_lt_length_iff_exists.mpr
              ⟨nt, List.contains_iff_mem.mp hmem, by simp⟩
          refine ⟨left, by simp only [hall]; exact hleft, hsub.trans List.filter_sublist, hgen,
            fun hlen => ?_⟩
          have := hsub.length_le
          omega
      · obtain ⟨left, hleft, hsub, hgen, hstuck⟩ := ih hl' suspects hclear
        refine ⟨left, by rw [if_neg hmem]; exact hleft, hsub, hgen, fun hlen e he => ?_⟩
        rcases List.mem_cons.mp he with rfl | he
        · exact fun hs => absurd (List.contains_iff_mem.mpr hs) hmem
        · exact hstuck hlen e he

/-- **All passes.** With a pass to spare for each suspect, the passes end with suspects none of which
    can be cleared. -/
theorem clearSuspects_spec (passes : Nat) (suspects : List Symbol) (hlen : suspects.length < passes)
    (hclear : ∀ s ∈ p.nonterminals, s ∉ suspects → p.Generating s) :
    ∃ left, clearSuspects p.productions p.nonterminals.zipIdx passes suspects = some left ∧
      left.Sublist suspects ∧ (∀ s ∈ p.nonterminals, s ∉ left → p.Generating s) ∧
      ∀ s ∈ p.nonterminals, s ∈ left →
        ∀ b ∈ RuleTable.bodies p.entries s, holdsSuspect left b = true := by
  induction passes generalizing suspects with
  | zero => exact absurd hlen (Nat.not_lt_zero _)
  | succ passes ih =>
      have hl : ∀ e ∈ p.nonterminals.zipIdx, p.nonterminals[e.2]? = some e.1 := fun e he =>
        List.mem_zipIdx_iff_getElem?.mp he
      obtain ⟨left, hpass, hsub, hgen, hstuck⟩ := hp.clearPass_spec _ hl suspects hclear
      unfold clearSuspects
      rw [hpass]
      by_cases heq : left.length = suspects.length
      · -- the pass cleared no one, so it looked at every suspect with all the others in place
        have hsame : left = suspects := hsub.eq_of_length heq
        refine ⟨left, by simp only [heq, if_true], hsub, hgen, fun s hs hm => ?_⟩
        obtain ⟨i, hi⟩ := List.getElem?_of_mem hs
        have := hstuck heq (s, i) (List.mem_zipIdx_iff_getElem?.mpr hi) (hsame ▸ hm)
        rw [hsame]
        exact this
      · have hle := hsub.length_le
        obtain ⟨left', hrun, hsub', hgen', hstuck'⟩ := ih left (by omega) hgen
        exact ⟨left', by simp only [heq, if_false]; exact hrun, hsub'.trans hsub, hgen', hstuck'⟩

/-- Nonterminals each of whose bodies holds one of them derive no word. -/
theorem not_generating_of_stuck {left : List Symbol} (hleft : ∀ s ∈ left, s ∈ p.nonterminals)
    (hstuck : ∀ s ∈ left, ∀ b ∈ RuleTable.bodies p.entries s, holdsSuspect left b = true)
    {nt : Symbol} (hnt : nt ∈ left) : ¬ p.Generating nt := by
  rintro ⟨w, hw⟩
  have hlow : ∀ s ∈ left, s.isLower = false := fun s hs => hp.nonterminal_not_lower (hleft s hs)
  -- the reading that gives words to all symbols but these is closed under the rules
  have hread : RuleTable.Reads (fun s _ => s ∉ left) [nt] w := by
    refine hw.least fun s c _ hc u hu hs => ?_
    obtain ⟨y, hy, hyl⟩ := (holdsSuspect_iff (hp.body_isScalar hc)).mp (hstuck s hs c hc)
    obtain ⟨_, hny⟩ := hu.exists_given hy (hlow y hyl)
    exact hny hyl
  exact (RuleTable.reads_singleton_iff (hlow nt hnt)).mp hread hnt

/-- **The check finds the nonterminals that derive no word.** -/
theorem nonGenerating?_eq_some :
    ∃ bad : List Symbol, nonGenerating? p.nonterminals p.productions
        = some (p.nonterminals.filter fun nt => bad.contains nt) ∧
      ∀ nt ∈ p.nonterminals, nt ∈ bad ↔ ¬ p.Generating nt := by
  obtain ⟨left, hrun, hsub, hgen, hstuck⟩ := hp.clearSuspects_spec (p.nonterminals.length + 1)
    p.nonterminals (Nat.lt_succ_self _) (fun s hs hn => absurd hs hn)
  refine ⟨left, ?_, fun nt hnt => ⟨fun hm => ?_, fun hn => ?_⟩⟩
  · unfold nonGenerating?
    rw [hrun]
  · exact hp.not_generating_of_stuck (fun s hs => hsub.subset hs)
      (fun s hs => hstuck s (hsub.subset hs) hs) hm
  · exact Classical.byContradiction fun hm => hn (hgen nt hnt hm)

end WellFormed

/-! ## All tests together -/

theorem declares_iff {s : Symbol} : p.declares s = true ↔ s ∈ p.terminals ∨ s ∈ p.nonterminals := by
  simp [declares, isTerminal, isNonterminal]

/-- A set of bodies passes when it is not empty and all its symbols are declared. -/
theorem setFault?_eq_none_iff {nt : Symbol} {bs : List Body} :
    p.setFault? nt bs = none ↔
      bs ≠ [] ∧ ∀ b ∈ bs, ∀ s ∈ b, s ∈ p.terminals ∨ s ∈ p.nonterminals := by
  unfold setFault?
  by_cases hbs : bs = []
  · simp [hbs]
  · have hne : bs.isEmpty = false := by simpa using hbs
    rw [hne, if_neg Bool.false_ne_true]
    cases hfind : bs.flatten.find? fun s => !p.declares s with
    | some s =>
        have hmem := List.mem_of_find?_eq_some hfind
        have hund : p.declares s = false := by simpa using List.find?_some hfind
        obtain ⟨b, hb, hsb⟩ := List.mem_flatten.mp hmem
        refine ⟨fun h => absurd h (by simp), fun h => ?_⟩
        rw [declares_iff.mpr (h.2 b hb s hsb)] at hund
        exact Bool.noConfusion hund
    | none =>
        refine ⟨fun _ => ⟨hbs, fun b hb s hs => ?_⟩, fun _ => rfl⟩
        have hnot := List.find?_eq_none.mp hfind s (List.mem_flatten.mpr ⟨b, hb, hs⟩)
        exact declares_iff.mp (by simpa using hnot)

/-- The tests on alphabets, count and sets are the conditions of well-formed parts. -/
theorem wellFormed_iff :
    p.WellFormed ↔
      (lowerOnly (Body.chars p.terminals) && allDistinct (Body.chars p.terminals)) = true ∧
      (upperOnly (Body.chars p.nonterminals) && allDistinct (Body.chars p.nonterminals)) = true ∧
      p.productions.length = p.nonterminals.length ∧
      (p.entries.findSome? fun e => p.setFault? e.1 e.2) = none := by
  rw [Bool.and_eq_true, Bool.and_eq_true, lowerOnly_chars, upperOnly_chars, List.findSome?_eq_none_iff]
  have hsnd : p.productions.length = p.nonterminals.length → p.entries.map Prod.snd = p.productions :=
    fun h => List.map_snd_zip (Nat.le_of_eq h)
  constructor
  · intro h
    refine ⟨⟨h.terminals_lower, ?_⟩, ⟨h.nonterminals_upper, ?_⟩, h.count, fun e he => ?_⟩
    · exact (allDistinct_chars fun s hs => Symbol.isScalar_of_isLower (h.terminals_lower s hs)).mpr
        h.terminals_nodup
    · exact (allDistinct_chars fun s hs => Symbol.isScalar_of_isUpper (h.nonterminals_upper s hs)).mpr
        h.nonterminals_nodup
    · have hmem : e.2 ∈ p.productions := hsnd h.count ▸ List.mem_map_of_mem he
      exact setFault?_eq_none_iff.mpr ⟨h.sets_nonempty _ hmem, h.declared _ hmem⟩
  · rintro ⟨⟨hlow, hld⟩, ⟨hup, hud⟩, hcount, hsets⟩
    have hset : ∀ bs ∈ p.productions,
        bs ≠ [] ∧ ∀ b ∈ bs, ∀ s ∈ b, s ∈ p.terminals ∨ s ∈ p.nonterminals := by
      intro bs hbs
      rw [← hsnd hcount] at hbs
      obtain ⟨e, he, rfl⟩ := List.mem_map.mp hbs
      exact setFault?_eq_none_iff.mp (hsets e he)
    exact {
      terminals_lower := hlow
      terminals_nodup := (allDistinct_chars fun s hs => Symbol.isScalar_of_isLower (hlow s hs)).mp hld
      nonterminals_upper := hup
      nonterminals_nodup := (allDistinct_chars fun s hs => Symbol.isScalar_of_isUpper (hup s hs)).mp hud
      count := hcount
      sets_nonempty := fun bs hbs => (hset bs hbs).1
      declared := fun bs hbs => (hset bs hbs).2 }

/-- Nonterminals that are not all letters are refused, unless the terminals are refused before. -/
theorem fault?_of_not_upper (h : ∃ s ∈ p.nonterminals, s.isUpper = false) :
    ∃ kind, (kind = .invalidTerminals ∨ kind = .invalidNonterminals) ∧
      p.fault? = some ⟨kind, none, none⟩ := by
  have hupper : upperOnly (Body.chars p.nonterminals) = false := by
    refine Bool.eq_false_iff.mpr fun hall => ?_
    obtain ⟨s, hs, hout⟩ := h
    rw [upperOnly_chars.mp hall s hs] at hout
    cases hout
  unfold fault?
  split
  · exact ⟨_, .inl rfl, rfl⟩
  · rw [hupper]
    exact ⟨_, .inr rfl, rfl⟩

/-- Parts that are not well-formed have a fault. -/
theorem wellFormed_of_fault?_eq_none (h : p.fault? = none) : p.WellFormed := by
  unfold fault? at h
  split at h
  · exact absurd h (by simp)
  · rename_i hterm
    split at h
    · exact absurd h (by simp)
    · rename_i hnon
      split at h
      · exact absurd h (by simp)
      · rename_i hcount
        split at h
        · exact absurd h (by simp)
        · rename_i hsets
          exact wellFormed_iff.mpr
            ⟨by simpa using hterm, by simpa using hnon, by simpa using hcount, hsets⟩

/-- On well-formed parts only the generating check is left. -/
theorem WellFormed.fault?_eq (h : p.WellFormed) :
    p.fault? = match nonGenerating? p.nonterminals p.productions with
      | some (nt :: _) => some (.found .nonGeneratingNonterminal nt ⟨0⟩)
      | _ => none := by
  obtain ⟨hterm, hnon, hcount, hsets⟩ := wellFormed_iff.mp h
  unfold fault?
  rewrite [hterm, hnon, hsets, if_neg (by simp), if_neg (by simp), if_neg (by simpa using hcount)]
  rfl

/-- The nonterminal named by a fault of well-formed parts is the first one that derives no word. -/
theorem WellFormed.fault?_eq_some (h : p.WellFormed)
    (hbad : ¬ ∀ nt ∈ p.nonterminals, p.Generating nt) :
    ∃ before nt after, p.nonterminals = before ++ nt :: after ∧
      (∀ s ∈ before, p.Generating s) ∧ ¬ p.Generating nt ∧
      p.fault? = some ⟨.nonGeneratingNonterminal, some nt, none⟩ := by
  obtain ⟨bad, hcheck, hmem⟩ := h.nonGenerating?_eq_some
  rw [h.fault?_eq, hcheck]
  cases hfilter : p.nonterminals.filter fun nt => bad.contains nt with
  | nil =>
      refine absurd (fun nt hnt => Classical.byContradiction fun hn => ?_) hbad
      have hin : nt ∈ p.nonterminals.filter fun nt => bad.contains nt :=
        List.mem_filter.mpr ⟨hnt, List.contains_iff_mem.mpr ((hmem nt hnt).mpr hn)⟩
      rw [hfilter] at hin
      exact List.not_mem_nil hin
  | cons nt rest =>
      obtain ⟨before, after, hsplit, hbefore, hnt, _⟩ := List.filter_eq_cons_iff.mp hfilter
      have hin : ∀ s ∈ before ++ nt :: after, s ∈ p.nonterminals := fun s hs => hsplit ▸ hs
      have hntin : nt ∈ p.nonterminals := hin nt (by simp)
      refine ⟨before, nt, after, hsplit, fun s hs => ?_, ?_, ?_⟩
      · have hsin : s ∈ p.nonterminals := hin s (List.mem_append_left _ hs)
        exact Classical.byContradiction fun hn =>
          hbefore s hs (List.contains_iff_mem.mpr ((hmem s hsin).mpr hn))
      · exact (hmem nt hntin).mp (List.contains_iff_mem.mp hnt)
      · have hcode := Symbol.isUpper_iff.mp (h.nonterminals_upper nt hntin)
        have hnz : nt.code ≠ 0 := by omega
        simp [Violation.found, Violation.named, hnz]

/-- Parts without a fault are the well-formed ones whose nonterminals all derive words. -/
theorem fault?_eq_none_iff :
    p.fault? = none ↔ p.WellFormed ∧ ∀ nt ∈ p.nonterminals, p.Generating nt := by
  constructor
  · intro h
    have hwf := wellFormed_of_fault?_eq_none h
    refine ⟨hwf, Classical.byContradiction fun hbad => ?_⟩
    obtain ⟨_, _, _, _, _, _, hsome⟩ := hwf.fault?_eq_some hbad
    rw [h] at hsome
    exact absurd hsome (by simp)
  · rintro ⟨hwf, hgen⟩
    obtain ⟨bad, hcheck, hmem⟩ := hwf.nonGenerating?_eq_some
    have hnil : (p.nonterminals.filter fun nt => bad.contains nt) = [] := by
      rw [List.filter_eq_nil_iff]
      exact fun nt hnt hc => (hmem nt hnt).mp (List.contains_iff_mem.mp hc) (hgen nt hnt)
    rw [hwf.fault?_eq, hcheck, hnil]

end Parts

/-! ## Building grammars -/

namespace Grammar

theorem build_of_fault?_eq_none {p : Parts} (h : p.fault? = none) : build p = .ok ⟨p, false, h⟩ := by
  unfold build
  split
  · rename_i v hv
    rw [h] at hv
    exact absurd hv (by simp)
  · rfl

theorem build_of_fault?_eq_some {p : Parts} {v : Violation} (h : p.fault? = some v) :
    build p = .error (.violation v) := by
  unfold build
  split
  · rename_i v' hv
    rw [h] at hv
    injection hv with hv
    rw [hv]
  · rename_i hn
    rw [h] at hn
    exact absurd hn (by simp)

/-- A built grammar holds the given parts, without the regularity mark. -/
theorem build_eq_ok_iff {p : Parts} {g : Grammar} :
    build p = .ok g ↔ g.toParts = p ∧ g.regular = false := by
  constructor
  · intro h
    cases hf : p.fault? with
    | some v =>
        rw [build_of_fault?_eq_some hf] at h
        exact absurd h (by simp)
    | none =>
        rw [build_of_fault?_eq_none hf] at h
        injection h with h
        rw [← h]
        exact ⟨rfl, rfl⟩
  · rintro ⟨rfl, hr⟩
    rw [build_of_fault?_eq_none g.valid, ← hr]

theorem wellFormed (g : Grammar) : g.toParts.WellFormed :=
  (Parts.fault?_eq_none_iff.mp g.valid).1

theorem generating (g : Grammar) {nt : Symbol} (h : nt ∈ g.nonterminals) : g.toParts.Generating nt :=
  (Parts.fault?_eq_none_iff.mp g.valid).2 nt h

/-- **Validation accepts exactly the well-formed parts whose nonterminals all derive words**, and keeps
    them as given. Where only the last condition fails, the fault names the first declared nonterminal
    that derives no word. -/
theorem build_accepts_iff_wellFormed_generating (p : Parts) :
    ((∃ g, build p = .ok g) ↔ p.WellFormed ∧ ∀ nt ∈ p.nonterminals, p.Generating nt) ∧
    (∀ g, build p = .ok g →
      g.terminals = p.terminals ∧ g.nonterminals = p.nonterminals ∧ g.productions = p.productions) ∧
    (p.WellFormed → (¬ ∀ nt ∈ p.nonterminals, p.Generating nt) →
      ∃ before nt after, p.nonterminals = before ++ nt :: after ∧
        (∀ s ∈ before, p.Generating s) ∧ ¬ p.Generating nt ∧
        build p = .error (.violation ⟨.nonGeneratingNonterminal, some nt, none⟩)) := by
  refine ⟨?_, fun g hg => ?_, fun hwf hbad => ?_⟩
  · rw [← Parts.fault?_eq_none_iff]
    refine ⟨fun ⟨g, hg⟩ => ?_, fun h => ⟨_, build_of_fault?_eq_none h⟩⟩
    rw [← (build_eq_ok_iff.mp hg).1]
    exact g.valid
  · have hparts := (build_eq_ok_iff.mp hg).1
    exact ⟨congrArg Parts.terminals hparts, congrArg Parts.nonterminals hparts,
      congrArg Parts.productions hparts⟩
  · obtain ⟨before, nt, after, hsplit, hbefore, hnt, hfault⟩ := hwf.fault?_eq_some hbad
    exact ⟨before, nt, after, hsplit, hbefore, hnt, build_of_fault?_eq_some hfault⟩

end Grammar

end LetterGrammar
