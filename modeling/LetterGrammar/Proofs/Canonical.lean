import LetterGrammar.Symbol

/-!
# The canonical list of a set of bodies

Bodies are told apart and put in order by their printed texts. Printing loses nothing as long as every
symbol is the code of a character, so on such bodies the removal of duplicates keeps the set of bodies
and the canonical list depends on that set alone.

## Contents

- **`Symbol.IsScalar`**: the code of a symbol is that of a character.
- **`chars_injOn`**: bodies of such symbols that print alike are equal.
- **`mem_distinctOn_iff`**, **`mem_distinct`**: what is left once duplicates are removed.
- **`distinctOn_id_nil`**, **`distinct_eq_eraseDups`**: what is left are the first occurrences.
- **`eq_canonical_of_perm`**: every way of sorting distinct bodies gives the canonical list.
- **`canonical_congr`**: the canonical list is a function of the set of bodies.
- **`canonical_strict`**: its texts are strictly increasing.
- **`canonical_form_of_set`**: the canonical list stands for the set of bodies.
-/

namespace LetterGrammar

/-! ## Symbols that are characters -/

namespace Symbol

/-- The code of the symbol is that of a character. -/
def IsScalar (s : Symbol) : Prop := ∃ c : Char, s = ofChar c

@[simp] theorem toChar_ofChar (c : Char) : (ofChar c).toChar = c := by
  have hv : c.toNat.isValidChar := c.valid
  show (if c.toNat.isValidChar then Char.ofNat c.toNat else replacementChar) = c
  rw [if_pos hv, Char.ofNat_toNat]

/-- Symbols that are characters are equal once they print alike. -/
theorem IsScalar.toChar_inj {s s' : Symbol} (hs : s.IsScalar) (hs' : s'.IsScalar)
    (h : s.toChar = s'.toChar) : s = s' := by
  obtain ⟨c, rfl⟩ := hs
  obtain ⟨c', rfl⟩ := hs'
  rw [toChar_ofChar, toChar_ofChar] at h
  rw [h]

theorem toNat_ofNat {n : Nat} (hv : n.isValidChar) : (Char.ofNat n).toNat = n := by
  unfold Char.ofNat
  rw [dif_pos hv]
  rfl

/-- A code below the surrogates is that of a character. -/
theorem isScalar_of_lt {s : Symbol} (h₀ : 0 ≤ s.code) (h : s.code < 0xD800) : s.IsScalar := by
  have hv : s.code.toNat.isValidChar := Or.inl (by omega)
  refine ⟨Char.ofNat s.code.toNat, ?_⟩
  obtain ⟨code⟩ := s
  show Symbol.mk code = ⟨((Char.ofNat code.toNat).toNat : Int)⟩
  rw [toNat_ofNat hv, Int.toNat_of_nonneg h₀]

theorem isLower_iff {s : Symbol} : s.isLower = true ↔ 97 ≤ s.code ∧ s.code ≤ 122 := by
  simp [isLower]

theorem isUpper_iff {s : Symbol} : s.isUpper = true ↔ 65 ≤ s.code ∧ s.code ≤ 90 := by
  simp [isUpper]

theorem isScalar_of_isLower {s : Symbol} (h : s.isLower = true) : s.IsScalar := by
  have := isLower_iff.mp h
  exact isScalar_of_lt (by omega) (by omega)

theorem isScalar_of_isUpper {s : Symbol} (h : s.isUpper = true) : s.IsScalar := by
  have := isUpper_iff.mp h
  exact isScalar_of_lt (by omega) (by omega)

/-- No letter is both a terminal and a nonterminal. -/
theorem isLower_eq_false_of_isUpper {s : Symbol} (h : s.isUpper = true) : s.isLower = false := by
  have := isUpper_iff.mp h
  rw [Bool.eq_false_iff]
  intro hl
  have := isLower_iff.mp hl
  omega

end Symbol

/-- Every symbol of the body is a character. -/
def Body.IsScalar (b : Body) : Prop := ∀ s ∈ b, s.IsScalar

/-- A body of characters can be told from its characters. -/
theorem Body.map_ofChar_chars {b : Body} (h : b.IsScalar) : b.chars.map Symbol.ofChar = b := by
  unfold chars
  rw [List.map_map]
  refine (List.map_congr_left fun s hs => ?_).trans (List.map_id b)
  obtain ⟨c, rfl⟩ := h s hs
  exact congrArg Symbol.ofChar (Symbol.toChar_ofChar c)

/-- Bodies of characters are equal once they print alike. -/
theorem chars_injOn {a b : Body} (ha : a.IsScalar) (hb : b.IsScalar) (h : a.chars = b.chars) : a = b := by
  rw [← Body.map_ofChar_chars ha, h, Body.map_ofChar_chars hb]

/-! ## Removing duplicates -/

section DistinctOn

variable {α κ : Type} [BEq κ] {key : α → κ}

/-- The removal of duplicates only leaves members out. -/
theorem distinctOn_sublist (seen : List κ) (l : List α) : (distinctOn key seen l).Sublist l := by
  induction l generalizing seen with
  | nil => exact List.Sublist.refl _
  | cons a l ih =>
      simp only [distinctOn]
      split
      · exact (ih seen).cons a
      · exact (ih (key a :: seen)).cons_cons a

theorem distinctOn_map {β : Type} (f : β → α) (seen : List κ) (l : List β) :
    distinctOn key seen (l.map f) = (distinctOn (fun b => key (f b)) seen l).map f := by
  induction l generalizing seen with
  | nil => rfl
  | cons b l ih =>
      simp only [List.map_cons, distinctOn]
      split
      · exact ih seen
      · rw [List.map_cons, ih]

variable [LawfulBEq κ]

/-- The keys of what is left are new and differ from each other. -/
theorem distinctOn_keys (seen : List κ) (l : List α) :
    ((distinctOn key seen l).map key).Nodup ∧ ∀ a ∈ distinctOn key seen l, key a ∉ seen := by
  induction l generalizing seen with
  | nil => exact ⟨List.nodup_nil, by simp [distinctOn]⟩
  | cons a l ih =>
      simp only [distinctOn]
      split
      · exact ih seen
      · rename_i hk
        have hk' : key a ∉ seen := by simpa using hk
        obtain ⟨hnd, hnew⟩ := ih (key a :: seen)
        refine ⟨?_, ?_⟩
        · rw [List.map_cons, List.nodup_cons]
          refine ⟨fun hm => ?_, hnd⟩
          obtain ⟨b, hb, hab⟩ := List.mem_map.mp hm
          exact hnew b hb (hab ▸ List.mem_cons_self)
        · intro b hb
          rcases List.mem_cons.mp hb with rfl | hb
          · exact hk'
          · exact fun hs => hnew b hb (List.mem_cons_of_mem _ hs)

/-- Members with new and different keys are left as they are. -/
theorem distinctOn_eq_self {seen : List κ} {l : List α} (hnd : (l.map key).Nodup)
    (hnew : ∀ a ∈ l, key a ∉ seen) : distinctOn key seen l = l := by
  induction l generalizing seen with
  | nil => rfl
  | cons a l ih =>
      obtain ⟨hkey, hnd'⟩ := List.nodup_cons.mp hnd
      obtain ⟨hka, hnew'⟩ := List.forall_mem_cons.mp hnew
      have hseen : ¬ seen.contains (key a) = true := fun h => hka (List.contains_iff_mem.mp h)
      simp only [distinctOn]
      rw [if_neg hseen, ih hnd' fun b hb hs => ?_]
      rcases List.mem_cons.mp hs with heq | hs
      · exact hkey (List.mem_map.mpr ⟨b, hb, heq⟩)
      · exact hnew' b hb hs

/-- What is left has no duplicates. -/
theorem distinctOn_nodup (seen : List κ) (l : List α) : (distinctOn key seen l).Nodup :=
  (List.pairwise_map.mp (distinctOn_keys seen l).1).imp fun hne heq => hne (congrArg key heq)

/-- Where the key tells the members apart, exactly the members with an unseen key are left. -/
theorem mem_distinctOn_iff {l : List α} (hkey : ∀ a ∈ l, ∀ b ∈ l, key a = key b → a = b)
    {seen : List κ} {a : α} : a ∈ distinctOn key seen l ↔ a ∈ l ∧ key a ∉ seen := by
  induction l generalizing seen with
  | nil => simp [distinctOn]
  | cons b l ih =>
      have hkey' : ∀ x ∈ l, ∀ y ∈ l, key x = key y → x = y := fun x hx y hy =>
        hkey x (List.mem_cons_of_mem _ hx) y (List.mem_cons_of_mem _ hy)
      simp only [distinctOn]
      split
      · rename_i hk
        have hk' : key b ∈ seen := by simpa using hk
        rw [ih hkey', List.mem_cons]
        refine ⟨fun h => ⟨Or.inr h.1, h.2⟩, fun h => ⟨?_, h.2⟩⟩
        rcases h.1 with rfl | hl
        · exact absurd hk' h.2
        · exact hl
      · rename_i hk
        have hk' : key b ∉ seen := by simpa using hk
        rw [List.mem_cons, List.mem_cons, ih hkey']
        constructor
        · rintro (rfl | ⟨hl, hn⟩)
          · exact ⟨Or.inl rfl, hk'⟩
          · exact ⟨Or.inr hl, fun hs => hn (List.mem_cons_of_mem _ hs)⟩
        · rintro ⟨rfl | hl, hn⟩
          · exact Or.inl rfl
          · -- a later member with the key of `b` is `b` again
            by_cases hab : key a = key b
            · exact Or.inl (hkey a (List.mem_cons_of_mem _ hl) b List.mem_cons_self hab)
            · exact Or.inr ⟨hl, fun hs => (List.mem_cons.mp hs).elim hab hn⟩

theorem mem_distinctOn_id {seen l : List κ} {a : κ} : a ∈ distinctOn id seen l ↔ a ∈ l ∧ a ∉ seen :=
  mem_distinctOn_iff fun _ _ _ _ h => h

/-- Keys that tell the members apart can be left out of account. -/
theorem distinctOn_of_key_inj [BEq α] [LawfulBEq α] (seen l : List α)
    (hkey : ∀ a ∈ l, ∀ b ∈ seen ++ l, key a = key b → a = b) :
    distinctOn key (seen.map key) l = distinctOn id seen l := by
  induction l generalizing seen with
  | nil => rfl
  | cons a l ih =>
      have hseen : (seen.map key).contains (key a) = seen.contains a := by
        rw [Bool.eq_iff_iff, List.contains_iff_mem, List.contains_iff_mem, List.mem_map]
        constructor
        · rintro ⟨b, hb, hab⟩
          rw [hkey a List.mem_cons_self b (List.mem_append_left _ hb) hab.symm]
          exact hb
        · exact fun ha => ⟨a, ha, rfl⟩
      have hold : ∀ x ∈ l, ∀ b ∈ seen ++ l, key x = key b → x = b := by
        intro x hx b hb
        apply hkey x (List.mem_cons_of_mem _ hx) b
        simp only [List.mem_append, List.mem_cons] at hb ⊢
        exact hb.imp_right Or.inr
      have hnew : ∀ x ∈ l, ∀ b ∈ (a :: seen) ++ l, key x = key b → x = b := by
        intro x hx b hb
        rcases List.mem_cons.mp hb with rfl | hb
        · exact hkey x (List.mem_cons_of_mem _ hx) b (by simp)
        · exact hold x hx b hb
      simp only [distinctOn, hseen, id_eq]
      rw [ih seen hold, ← List.map_cons, ih (a :: seen) hnew]

/-- Without a key, the members left are the first occurrences of what is not seen. -/
theorem distinctOn_id_eq (seen l : List κ) :
    distinctOn id seen l = (l.filter fun a => !seen.contains a).eraseDups := by
  induction l generalizing seen with
  | nil => simp [distinctOn]
  | cons a l ih =>
      by_cases ha : seen.contains a = true
      · rw [List.filter_cons_of_neg (by simpa using ha)]
        simp only [distinctOn, id_eq, ha, if_true]
        exact ih seen
      · rw [List.filter_cons_of_pos (by simpa using ha), List.eraseDups_cons, List.filter_filter]
        simp only [distinctOn, id_eq, ha, Bool.false_eq_true, if_false, ih]
        congr 3
        funext b
        rw [List.contains_cons, Bool.not_or]

theorem distinctOn_id_nil (l : List κ) : distinctOn id [] l = l.eraseDups := by
  rw [distinctOn_id_eq]
  exact congrArg List.eraseDups (List.filter_eq_self.mpr fun _ _ => rfl)

/-- A list without duplicates is left as it is. -/
theorem eraseDups_of_nodup {l : List κ} (h : l.Nodup) : l.eraseDups = l := by
  induction l with
  | nil => rfl
  | cons a l ih =>
      rw [List.nodup_cons] at h
      have hkeep : (l.filter fun b => !b == a) = l := by
        apply List.filter_eq_self.mpr
        intro b hb
        have hne : b ≠ a := fun heq => h.1 (heq ▸ hb)
        simpa using hne
      rw [List.eraseDups_cons, hkeep, ih h.2]

/-- First occurrences stay first occurrences when the members are renamed one to one. -/
theorem eraseDups_map {β : Type} [BEq β] [LawfulBEq β] {f : β → κ} (hf : ∀ a b, f a = f b → a = b)
    (l : List β) : (l.map f).eraseDups = l.eraseDups.map f := by
  rw [← distinctOn_id_nil, distinctOn_map, ← distinctOn_id_nil]
  congr 1
  exact distinctOn_of_key_inj [] l fun a _ b _ => hf a b

end DistinctOn

namespace Body

/-- Bodies of characters keep their set when duplicates are removed. -/
theorem mem_distinct {bodies : List Body} (h : ∀ b ∈ bodies, b.IsScalar) {b : Body} :
    b ∈ distinct bodies ↔ b ∈ bodies := by
  unfold distinct
  rw [mem_distinctOn_iff (fun a ha c hc => chars_injOn (h a ha) (h c hc))]
  simp

/-- Bodies of characters are left at their first occurrences. -/
theorem distinct_eq_eraseDups {bodies : List Body} (h : ∀ b ∈ bodies, b.IsScalar) :
    distinct bodies = bodies.eraseDups := by
  rw [← distinctOn_id_nil]
  exact distinctOn_of_key_inj [] bodies fun a ha b hb => chars_injOn (h a ha) (h b hb)

/-- The removal of duplicates brings in no body. -/
theorem mem_of_mem_distinct {bodies : List Body} {b : Body} (h : b ∈ distinct bodies) : b ∈ bodies :=
  (distinctOn_sublist [] bodies).subset h

theorem distinct_nodup (bodies : List Body) : (distinct bodies).Nodup :=
  distinctOn_nodup [] bodies

/-- There are no duplicates to remove a second time. -/
theorem distinct_distinct (bodies : List Body) : distinct (distinct bodies) = distinct bodies :=
  distinctOn_eq_self (distinctOn_keys [] bodies).1 (distinctOn_keys [] bodies).2

/-- A body is a suffixed one when it is one of the bodies, with or without the symbol after it. -/
theorem mem_withSuffix {bodies : List Body} {suffix : Symbol} (h : ∀ b ∈ bodies, b.IsScalar)
    (hs : suffix.IsScalar) {b : Body} :
    b ∈ withSuffix bodies suffix ↔ b ∈ bodies ∨ ∃ c ∈ bodies, b = c ++ [suffix] := by
  have hall : ∀ b ∈ bodies ++ bodies.map (· ++ [suffix]), b.IsScalar := by
    intro b hb
    rcases List.mem_append.mp hb with hb | hb
    · exact h b hb
    · obtain ⟨c, hc, rfl⟩ := List.mem_map.mp hb
      exact List.forall_mem_append.mpr ⟨h c hc, List.forall_mem_singleton.mpr hs⟩
  unfold withSuffix
  rw [mem_distinct hall, List.mem_append, List.mem_map]
  constructor
  · rintro (hb | ⟨c, hc, rfl⟩)
    · exact Or.inl hb
    · exact Or.inr ⟨c, hc, rfl⟩
  · rintro (hb | ⟨c, hc, rfl⟩)
    · exact Or.inl hb
    · exact Or.inr ⟨c, hc, rfl⟩

end Body

/-! ## Sorting, and the byte order -/

/-- A list is sorted by any key whose order is transitive and total. -/
theorem pairwise_mergeSort_key {α β : Type} [LE β] [DecidableLE β] (key : α → β)
    (trans : ∀ {x y z : β}, x ≤ y → y ≤ z → x ≤ z) (total : ∀ x y : β, x ≤ y ∨ y ≤ x) (l : List α) :
    (l.mergeSort fun a b => key a ≤ key b).Pairwise fun a b => key a ≤ key b := by
  have h : (l.mergeSort fun a b => key a ≤ key b).Pairwise fun a b => decide (key a ≤ key b) = true := by
    apply List.pairwise_mergeSort
    · intro a b c hab hbc
      exact decide_eq_true (trans (of_decide_eq_true hab) (of_decide_eq_true hbc))
    · intro a b
      rw [Bool.or_eq_true, decide_eq_true_eq, decide_eq_true_eq]
      exact total (key a) (key b)
  exact h.imp of_decide_eq_true

/-- Texts with the same bytes are the same. -/
theorem bytes_injective {a b : List Char} (h : bytes a = bytes b) : a = b := by
  have henc : a.utf8Encode = b.utf8Encode := by
    unfold List.utf8Encode
    exact congrArg List.toByteArray h
  have hstr : String.ofList a = String.ofList b := by
    rw [← String.toByteArray_inj, String.toByteArray_ofList, String.toByteArray_ofList, henc]
  exact String.ofList_injective hstr

theorem bytesLe_antisymm {a b : List Char} (hab : bytesLe a b = true) (hba : bytesLe b a = true) :
    a = b := by
  simp only [bytesLe, decide_eq_true_eq] at hab hba
  exact bytes_injective (List.le_antisymm hab hba)

namespace Body

theorem mem_sorted {bodies : List Body} {b : Body} : b ∈ sorted bodies ↔ b ∈ bodies :=
  List.mem_mergeSort

theorem sorted_pairwise (bodies : List Body) :
    (sorted bodies).Pairwise fun a b => bytesLe a.chars b.chars = true :=
  (pairwise_mergeSort_key (fun b => bytes (chars b)) List.le_trans List.le_total bodies).imp decide_eq_true

/-- The canonical list holds the given bodies. -/
theorem mem_canonical {bodies : List Body} (h : ∀ b ∈ bodies, b.IsScalar) {b : Body} :
    b ∈ canonical bodies ↔ b ∈ bodies := by
  unfold canonical
  rw [mem_sorted, mem_distinct h]

/-- **There is one way to sort distinct bodies**: no two of them print alike, so whatever puts them in
    byte order, stable or not, gives the canonical list. -/
theorem eq_canonical_of_perm {bodies l : List Body} (h : ∀ b ∈ bodies, b.IsScalar)
    (hperm : l.Perm (distinct bodies))
    (hsorted : l.Pairwise fun a b => bytesLe a.chars b.chars = true) : l = canonical bodies := by
  have hperm' : l.Perm (canonical bodies) := hperm.trans (List.mergeSort_perm _ _).symm
  have hscalar : ∀ b ∈ canonical bodies, b.IsScalar := fun b hb => h b ((mem_canonical h).mp hb)
  -- two sorted lists of the same members can differ only where the order does not tell members apart
  refine List.Perm.eq_of_pairwise ?_ hsorted (sorted_pairwise _) hperm'
  intro a b ha hb hab hba
  exact chars_injOn (hscalar a (hperm'.mem_iff.mp ha)) (hscalar b hb) (bytesLe_antisymm hab hba)

/-- **The canonical list is a function of the set of bodies**: neither their order nor repetitions
    matter. -/
theorem canonical_congr {as bs : List Body} (h : ∀ b ∈ as, b.IsScalar) (hset : ∀ b, b ∈ as ↔ b ∈ bs) :
    canonical as = canonical bs := by
  have h' : ∀ b ∈ bs, b.IsScalar := fun b hb => h b ((hset b).mpr hb)
  have hmem : ∀ b, b ∈ distinct as ↔ b ∈ distinct bs := by
    intro b
    rw [mem_distinct h, mem_distinct h', hset]
  have hperm : (distinct as).Perm (distinct bs) :=
    (List.perm_ext_iff_of_nodup (distinct_nodup as) (distinct_nodup bs)).mpr hmem
  exact eq_canonical_of_perm h' ((List.mergeSort_perm _ _).trans hperm) (sorted_pairwise _)

/-- A canonical list is its own canonical list. -/
theorem canonical_canonical {bodies : List Body} (h : ∀ b ∈ bodies, b.IsScalar) :
    canonical (canonical bodies) = canonical bodies := by
  apply canonical_congr
  · exact fun b hb => h b ((mem_canonical h).mp hb)
  · exact fun b => mem_canonical h

/-- Bodies of characters without repetitions are only brought in order. -/
theorem canonical_perm {bodies : List Body} (h : ∀ b ∈ bodies, b.IsScalar) (hnd : bodies.Nodup) :
    (canonical bodies).Perm bodies := by
  have hdistinct : distinct bodies = bodies := by
    rw [distinct_eq_eraseDups h, eraseDups_of_nodup hnd]
  unfold canonical sorted
  rw [hdistinct]
  exact List.mergeSort_perm _ _

/-- The texts of a canonical list are strictly increasing in the byte order. -/
theorem canonical_strict (bodies : List Body) :
    (canonical bodies).Pairwise fun a b => bytes a.chars < bytes b.chars := by
  have hkeys : ((canonical bodies).map chars).Nodup :=
    ((List.mergeSort_perm _ _).map chars).nodup_iff.mpr (distinctOn_keys [] bodies).1
  have hdiff : (canonical bodies).Pairwise fun a b => a.chars ≠ b.chars := List.pairwise_map.mp hkeys
  refine (sorted_pairwise (distinct bodies)).imp₂ (fun a b hle hne => ?_) hdiff
  -- texts that are in order and differ are in strict order
  apply Classical.byContradiction
  intro hlt
  have hge : bytesLe b.chars a.chars = true := by
    simp only [bytesLe, decide_eq_true_eq]
    exact List.not_lt.mp hlt
  exact hne (bytesLe_antisymm hle hge)

/-- **Removing duplicates and sorting gives a canonical form of a set of bodies.** For bodies of
    characters, the texts of the list are strictly increasing in the byte order and its members are the
    given bodies. So bodies with the same set, in whatever order and however often repeated, give the
    same list, and the list gives itself. No choice of the sorting shows in it: it is the only list of
    the distinct bodies whose texts are in byte order. -/
theorem canonical_form_of_set {bodies : List Body} (h : ∀ b ∈ bodies, b.IsScalar) :
    ((canonical bodies).Pairwise fun a b => bytes a.chars < bytes b.chars) ∧
    (∀ b, b ∈ canonical bodies ↔ b ∈ bodies) ∧
    (∀ others : List Body, (∀ b, b ∈ others ↔ b ∈ bodies) → canonical others = canonical bodies) ∧
    canonical (canonical bodies) = canonical bodies ∧
    ∀ l : List Body, l.Perm (distinct bodies) →
      (l.Pairwise fun a b => bytes a.chars ≤ bytes b.chars) → l = canonical bodies := by
  refine ⟨canonical_strict bodies, fun b => mem_canonical h, fun others hset => ?_,
    canonical_canonical h, fun l hperm hsorted => ?_⟩
  · exact (canonical_congr h fun b => (hset b).symm).symm
  · refine eq_canonical_of_perm h hperm (hsorted.imp fun hle => ?_)
    exact decide_eq_true hle

/-- Bodies out of order and repeated, with characters of one to four bytes. -/
def mixedBodies : List Body :=
  ["日", "z", "é", "", "😀", "z", "zé", ""].map ofText

theorem canonical_form_of_set_mixed :
    (∀ b ∈ mixedBodies, b.IsScalar) ∧ mixedBodies.reverse ≠ mixedBodies ∧
    canonical mixedBodies = ["", "z", "zé", "é", "日", "😀"].map ofText ∧
    canonical mixedBodies.reverse = canonical mixedBodies := by
  have hscalar : ∀ b ∈ mixedBodies, b.IsScalar := by
    refine List.forall_mem_map.mpr fun text _ => List.forall_mem_map.mpr fun c _ => ⟨c, rfl⟩
  obtain ⟨_, _, hcongr, _, hsorting⟩ := canonical_form_of_set hscalar
  refine ⟨hscalar, by decide, (hsorting _ (by decide) (by decide)).symm, hcongr _ fun b => ?_⟩
  exact List.mem_reverse

end Body

end LetterGrammar
