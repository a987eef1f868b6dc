import LetterGrammar.Proofs.Greibach.Soundness

/-!
# The first and the last step

The first step gives the nonterminals the letters of their ranks, and so puts the conversion in a sound
state; the last step keeps the nonterminals that can be reached and sorts their bodies. Both keep the
words of the nonterminals they keep.

## Contents

- **`rankLetter`**, **`rename_zip`**, **`rename_nonterminal`**: the letters of the ranks.
- **`bodies_assign`**, **`derives_assign`**: the renamed rules.
- **`sound_assign`**: the conversion starts in a sound state.
- **`kept_symbol`**, **`derives_result`**: pruning and sorting keep the words of what is kept.
- **`Phases`**, **`exists_phases`**: the states of a successful run.
- **`convert_ok_state`**: a converted grammar is the result of a sound state.
-/

namespace LetterGrammar
namespace Conversion

open RuleTable

/-! ## Ranks -/

/-- The letter of rank `i` among `n`: the last `n` letters, in order. -/
def rankLetter (n i : Nat) : Symbol := ⟨90 - n + 1 + i⟩

theorem lastLetters_eq (n : Nat) : lastLetters n = (List.range n).map (rankLetter n) := rfl

@[simp] theorem length_lastLetters (n : Nat) : (lastLetters n).length = n := by
  rw [lastLetters_eq, List.length_map, List.length_range]

theorem getElem?_lastLetters {n i : Nat} (h : i < n) : (lastLetters n)[i]? = some (rankLetter n i) := by
  rw [lastLetters_eq, List.getElem?_map, List.getElem?_range h]
  rfl

theorem mem_lastLetters {n : Nat} {s : Symbol} : s ∈ lastLetters n ↔ ∃ i < n, rankLetter n i = s := by
  rw [lastLetters_eq, List.mem_map]
  simp only [List.mem_range]

theorem rankLetter_inj {n i j : Nat} (h : rankLetter n i = rankLetter n j) : i = j := by
  have hcode : (90 - n + 1 + i : Int) = 90 - n + 1 + j := congrArg Symbol.code h
  omega

theorem lastLetters_nodup (n : Nat) : (lastLetters n).Nodup := by
  rw [lastLetters_eq, List.Nodup, List.pairwise_map]
  exact List.nodup_range.imp fun hne h => hne (rankLetter_inj h)

/-! ## Renaming -/

/-- A renaming of one list to another takes what stands at a position to what stands there in the other
    list. -/
theorem rename_zip {l l' : List Symbol} (hnd : l.Nodup) (hlen : l.length ≤ l'.length) {i : Nat}
    {s s' : Symbol} (h : l[i]? = some s) (h' : l'[i]? = some s') : rename (l.zip l') s = s' := by
  have hmem : (s, s') ∈ l.zip l' := List.mem_of_getElem? (List.getElem?_zip_eq_some.mpr ⟨h, h'⟩)
  unfold rename
  rw [lookup_eq_some_of_mem (by rw [List.map_fst_zip hlen]; exact hnd) hmem]
  rfl

/-- A symbol that is not renamed stays as it is. -/
theorem rename_zip_of_not_mem {l l' : List Symbol} {s : Symbol} (h : s ∉ l) :
    rename (l.zip l') s = s := by
  have hnone : (l.zip l').lookup s = none := by
    rw [List.lookup_eq_none_iff]
    intro e he
    rw [bne_iff_ne]
    exact fun hse => h (hse ▸ (List.of_mem_zip he).1)
  unfold rename
  rw [hnone]
  rfl

variable {p : Parts}

/-- The nonterminal at position `i` gets the letter of rank `i`. -/
theorem rename_nonterminal (hnd : p.nonterminals.Nodup) {i : Nat} {nt : Symbol}
    (h : p.nonterminals[i]? = some nt) :
    rename (newNames p) nt = rankLetter p.nonterminals.length i :=
  rename_zip hnd (Nat.le_of_eq (length_lastLetters _).symm) h
    (getElem?_lastLetters (List.getElem?_eq_some_iff.mp h).1)

section Assign

variable (hp : p.WellFormed)
include hp

/-- The renamed nonterminals are the last letters. -/
theorem map_rename_nonterminals :
    p.nonterminals.map (rename (newNames p)) = lastLetters p.nonterminals.length := by
  apply List.ext_getElem?
  intro i
  rw [List.getElem?_map]
  by_cases hi : i < p.nonterminals.length
  · rw [getElem?_lastLetters hi, List.getElem?_eq_getElem hi]
    exact congrArg some (rename_nonterminal hp.nonterminals_nodup (List.getElem?_eq_getElem hi))
  · rw [List.getElem?_eq_none (Nat.not_lt.mp hi),
      List.getElem?_eq_none (by rw [length_lastLetters]; exact Nat.not_lt.mp hi)]
    rfl

theorem heads_assign : (assign p).rules.heads = lastLetters p.nonterminals.length := by
  rw [← map_rename_nonterminals hp, ← Parts.heads_entries hp.count]
  unfold RuleTable.heads assign
  rw [List.map_map, List.map_map]
  rfl

/-- The bodies of a renamed nonterminal are its renamed bodies. -/
theorem bodies_assign {nt : Symbol} (h : nt ∈ p.nonterminals) :
    (assign p).rules.bodies (rename (newNames p) nt) =
      (RuleTable.bodies p.entries nt).map fun b => b.map (rename (newNames p)) := by
  obtain ⟨i, hi⟩ := List.getElem?_of_mem h
  obtain ⟨bs, hbs⟩ := hp.exists_set hi
  rw [hp.bodies_eq hi hbs]
  refine bodies_eq_of_mem (by rw [heads_assign hp]; exact lastLetters_nodup _) ?_
  exact List.mem_map.mpr
    ⟨(nt, bs), List.mem_of_getElem? (List.getElem?_zip_eq_some.mpr ⟨hi, hbs⟩), rfl⟩

theorem length_nonterminals_le : p.nonterminals.length ≤ 26 :=
  hp.nonterminals_nodup.length_le_of_subset fun s hs => mem_upperLetters (hp.nonterminals_upper s hs)

/-- The letters of ranks are nonterminals. -/
theorem isUpper_of_mem_lastLetters {s : Symbol} (h : s ∈ lastLetters p.nonterminals.length) :
    s.isUpper = true := by
  have hle := length_nonterminals_le hp
  obtain ⟨i, hi, rfl⟩ := mem_lastLetters.mp h
  rw [Symbol.isUpper_iff]
  show 65 ≤ (90 - p.nonterminals.length + 1 + i : Int) ∧ (90 - p.nonterminals.length + 1 + i : Int) ≤ 90
  omega

theorem rename_mem_lastLetters {nt : Symbol} (h : nt ∈ p.nonterminals) :
    rename (newNames p) nt ∈ lastLetters p.nonterminals.length := by
  rw [← map_rename_nonterminals hp]
  exact List.mem_map_of_mem h

theorem rename_terminal {s : Symbol} (h : s.isLower = true) : rename (newNames p) s = s :=
  rename_zip_of_not_mem fun hm => by
    rw [hp.nonterminal_not_lower hm] at h
    exact Bool.noConfusion h

/-- **Renaming keeps the words.** -/
theorem derives_assign {nt : Symbol} (h : nt ∈ p.nonterminals) (w : Word) :
    Derives p.entries [nt] w ↔ Derives (assign p).rules [rename (newNames p) nt] w := by
  refine derives_map_iff (K := fun s => s ∈ p.nonterminals) (fun s hs => ⟨?_, ?_⟩)
    (fun s hs => rename_terminal hp hs) (fun s _ b hb x hx => ?_) (fun s hs b' => ?_)
    (List.forall_mem_singleton.mpr (Or.inr h))
  · exact hp.nonterminal_not_lower hs
  · exact Symbol.isLower_eq_false_of_isUpper
      (isUpper_of_mem_lastLetters hp (rename_mem_lastLetters hp hs))
  · exact (hp.body_symbol hb hx).imp (hp.terminals_lower x) id
  · rw [bodies_assign hp hs, List.mem_map]

/-- Every body of the renamed table is a renamed body of a nonterminal. -/
theorem exists_body_of_assign {s : Symbol} {b' : Body} (h : b' ∈ (assign p).rules.bodies s) :
    ∃ nt ∈ p.nonterminals, ∃ b ∈ RuleTable.bodies p.entries nt,
      s = rename (newNames p) nt ∧ b' = b.map (rename (newNames p)) := by
  have hs := mem_heads_of_mem_bodies h
  rw [heads_assign hp, ← map_rename_nonterminals hp] at hs
  obtain ⟨nt, hnt, rfl⟩ := List.mem_map.mp hs
  rw [bodies_assign hp hnt] at h
  obtain ⟨b, hb, rfl⟩ := List.mem_map.mp h
  exact ⟨nt, hnt, b, hb, rfl, rfl⟩

theorem spelled_assign (s : Symbol) : ∀ b' ∈ (assign p).rules.bodies s,
    ∀ x ∈ b', x ∈ p.terminals ∨ x ∈ lastLetters p.nonterminals.length := by
  intro b' hb' x' hx'
  obtain ⟨nt, _, b, hb, _, rfl⟩ := exists_body_of_assign hp hb'
  obtain ⟨x, hx, rfl⟩ := List.mem_map.mp hx'
  rcases hp.body_symbol hb hx with ht | hn
  · rw [rename_terminal hp (hp.terminals_lower x ht)]
    exact Or.inl ht
  · exact Or.inr (rename_mem_lastLetters hp hn)

end Assign

/-- **The conversion of a grammar starts in a sound state.** -/
theorem sound_assign (g : Grammar) :
    Sound g.terminals (assign g.toParts) (assign g.toParts) := by
  have hp := g.wellFormed
  have hheads : (assign g.toParts).heads = lastLetters g.nonterminals.length := List.append_nil _
  have habove : ∀ s ∈ lastLetters g.nonterminals.length, (90 - g.nonterminals.length : Int) < s.code := by
    intro s hs
    obtain ⟨i, _, rfl⟩ := mem_lastLetters.mp hs
    show (90 - g.nonterminals.length : Int) < 90 - g.nonterminals.length + 1 + i
    omega
  exact {
    terminals_lower := hp.terminals_lower
    ranked_eq := rfl
    table_heads := by rw [hheads, heads_assign hp]
    heads_nodup := by rw [hheads]; exact lastLetters_nodup _
    heads_upper := by rw [hheads]; exact fun s hs => isUpper_of_mem_lastLetters hp hs
    spelled := by rw [hheads]; exact spelled_assign hp
    next_eq := by rw [hheads, length_lastLetters]; rfl
    heads_above := by rw [hheads]; exact habove
    used_above := fun s hs => habove s ((distinctOn_sublist [] _).subset hs)
    auxiliary_eq := rfl
    words := fun _ _ _ => Iff.rfl
    productive := by
      rw [hheads, ← map_rename_nonterminals hp]
      refine List.forall_mem_map.mpr fun nt hnt => ?_
      obtain ⟨w, hw⟩ := g.generating hnt
      exact ⟨w, (derives_assign hp hnt w).mp hw⟩ }

/-! ## Pruning and sorting -/

theorem keeps_iff {c : Conversion} {first : Symbol} {rest : List Symbol} (h : c.ranked = first :: rest)
    {s : Symbol} : c.keeps s = true ↔ s ∈ c.rules.reachable first := by
  unfold keeps
  rw [h]
  exact List.contains_iff_mem

namespace Sound

variable {terminals : List Symbol} {c₀ c : Conversion} (hs : Sound terminals c₀ c)
include hs

/-- The rules of a kept nonterminal mention kept nonterminals only. -/
theorem kept_symbol {s : Symbol} (hk : c.keeps s = true) {b : Body} (hb : b ∈ c.rules.bodies s)
    {x : Symbol} (hx : x ∈ b) : x ∈ terminals ∨ x ∈ c.heads.filter c.keeps := by
  rcases hs.spelled s b hb x hx with ht | hh
  · exact Or.inl ht
  · refine Or.inr (List.mem_filter.mpr ⟨hh, ?_⟩)
    cases hr : c.ranked with
    | nil =>
        unfold keeps at hk
        rw [hr] at hk
        cases hk
    | cons first rest =>
        rw [keeps_iff hr] at hk ⊢
        exact mem_reachable_of_mentions hk ⟨hs.heads_upper x hh, b, hb, hx⟩

/-- The result has the same bodies for a kept nonterminal. -/
theorem mem_bodies_result {s : Symbol} (h : s ∈ c.heads.filter c.keeps) {b : Body} :
    b ∈ RuleTable.bodies (c.result terminals).entries s ↔ b ∈ c.rules.bodies s := by
  show b ∈ RuleTable.bodies
    ((c.heads.filter c.keeps).zip ((c.heads.filter c.keeps).map fun nt =>
      Body.canonical (c.rules.bodies nt))) s ↔ _
  rw [bodies_zip_map _ _ h, Body.mem_canonical]
  exact fun b hb => hs.isScalar (hs.spelled s b hb)

/-- **Pruning and sorting keep the words** of the nonterminals that are kept. -/
theorem derives_result {s : Symbol} (h : s ∈ c.heads.filter c.keeps) (w : Word) :
    Derives c.rules [s] w ↔ Derives (c.result terminals).entries [s] w := by
  refine derives_restrict (K := fun s => s ∈ c.heads.filter c.keeps) (fun s h => ?_)
    (fun s h b hb x hx => ?_) (fun s h b => hs.mem_bodies_result h)
    (List.forall_mem_singleton.mpr (Or.inr h))
  · exact hs.not_lower_of_mem_heads (List.mem_filter.mp h).1
  · exact (hs.kept_symbol (List.mem_filter.mp h).2 hb hx).imp (hs.terminals_lower x) id

end Sound

theorem ofResult_eq_ok_iff {α : Type} {r : Except Fault α} {a : α} : ofResult r = .ok a ↔ r = .ok a := by
  cases r with
  | error f => exact ⟨fun h => (by cases h), fun h => (by cases h)⟩
  | ok b => exact Iff.rfl

/-- An assembled grammar has the parts of the state it came from. -/
theorem assemble_ok {on : Bool} {c : Conversion} {terminals : List Symbol} {r : Greibach}
    (h : (assemble on c terminals).result = .ok r) :
    r.grammar.toParts = c.result terminals ∧ r.grammar.regular = false := by
  rw [assemble_result, bind_eq_ok_iff] at h
  obtain ⟨g, hg, hr⟩ := h
  have hbuild := Grammar.build_eq_ok_iff.mp (ofResult_eq_ok_iff.mp hg)
  have hform : g.asGreibach = .ok r := ofResult_eq_ok_iff.mp hr
  unfold Grammar.asGreibach at hform
  split at hform
  · injection hform with hform
    rw [← hform]
    exact hbuild
  · cases hform

/-- The states of a successful run: `mid` is left by the elimination, `last` by the substitution. -/
structure Phases (on : Bool) (g : Grammar) (mid last : Conversion) (r : Greibach) : Prop where
  eliminated : ((assign g.toParts).eliminate on).result = .ok mid
  substituted : (mid.substitute on).result = .ok last
  assembled : (last.assemble on g.terminals).result = .ok r

/-- A successful run goes through all phases. -/
theorem exists_phases {on : Bool} {g : Grammar} {r : Greibach} (hne : g.nonterminals ≠ [])
    (h : (convert on g).result = .ok r) : ∃ mid last, Phases on g mid last r := by
  rw [convert_result, if_neg fun he => hne (List.isEmpty_iff.mp he), bind_eq_ok_iff] at h
  obtain ⟨mid, heliminated, h⟩ := h
  rw [bind_eq_ok_iff] at h
  obtain ⟨last, hsubstituted, hassembled⟩ := h
  exact ⟨mid, last, heliminated, hsubstituted, hassembled⟩

section

variable {on : Bool} {g : Grammar} {mid last : Conversion} {r : Greibach} (h : Phases on g mid last r)
include h

theorem Phases.sound_mid : Sound g.terminals (assign g.toParts) mid := by
  have hr : (assign g.toParts).ranked = [] ++ (assign g.toParts).ranked := rfl
  exact (sound_assign g).eliminateAll hr h.eliminated

theorem Phases.sound_last : Sound g.terminals (assign g.toParts) last :=
  h.sound_mid.substituteAll (fun _ hm => mem_substituted_iff.mp hm) h.substituted

end

/-- **A converted grammar is the result of a sound state.** -/
theorem convert_ok_state {on : Bool} {g : Grammar} {r : Greibach} (h : (convert on g).result = .ok r) :
    ∃ c, Sound g.terminals (assign g.toParts) c ∧ r.grammar.toParts = c.result g.terminals := by
  by_cases hempty : g.nonterminals = []
  · rw [convert_result, if_pos (List.isEmpty_iff.mpr hempty)] at h
    exact ⟨assign g.toParts, sound_assign g, (assemble_ok h).1⟩
  · obtain ⟨mid, last, hphases⟩ := exists_phases hempty h
    exact ⟨last, hphases.sound_last, (assemble_ok hphases.assembled).1⟩

end Conversion
end LetterGrammar
