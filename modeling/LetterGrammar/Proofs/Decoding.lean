import LetterGrammar.Proofs.Text

/-!
# Bytes read again

A text is read back from its bytes, and the bytes of a character are found in those of other glyphs only
where the character is one of them: its first byte is no continuation byte, so no glyph before it
reaches into it.

## Contents

- **`Glyph.exists_taken`**: what a glyph takes of the bytes it is read from.
- **`Glyph.first_of_encodeChar`**: the bytes of a character are read as the character.
- **`Glyph.allBytes_decode`**: no byte is lost; **`Glyph.isRead_ofString`**: a text is read back.
- **`Glyph.mem_of_occurs`**: a character found byte by byte is there.
- **`occursIn_iff`**: the search for bytes is exact.
-/

namespace LetterGrammar
namespace Glyph

/-! ## Continuation bytes -/

theorem isTail_iff {b : UInt8} : isTail b = true ↔ 128 ≤ b.toNat ∧ b.toNat ≤ 191 := by
  simp [isTail, UInt8.le_iff_toNat_le]

theorem isSecondOfThree_iff {a b : UInt8} :
    isSecondOfThree a b = true ↔
      isTail b = true ∧ (a.toNat = 0xE0 → 0xA0 ≤ b.toNat) ∧ (a.toNat = 0xED → b.toNat ≤ 0x9F) := by
  simp only [isSecondOfThree, isTail_iff, ← UInt8.toNat_inj, UInt8.toNat_ofNat]
  split
  · simp [UInt8.le_iff_toNat_le, *]; omega
  split
  · simp [UInt8.le_iff_toNat_le, *]; omega
  · simp [isTail_iff, *]

theorem isSecondOfFour_iff {a b : UInt8} :
    isSecondOfFour a b = true ↔
      isTail b = true ∧ (a.toNat = 0xF0 → 0x90 ≤ b.toNat) ∧ (a.toNat = 0xF4 → b.toNat ≤ 0x8F) := by
  simp only [isSecondOfFour, isTail_iff, ← UInt8.toNat_inj, UInt8.toNat_ofNat]
  split
  · simp [UInt8.le_iff_toNat_le, *]; omega
  split
  · simp [UInt8.le_iff_toNat_le, *]; omega
  · simp [isTail_iff, *]

/-! ## What a glyph takes -/

theorem length_fileBytes (g : Glyph) : g.fileBytes.length = g.size := by
  cases g with
  | scalar c => exact String.length_utf8EncodeChar c
  | stray b => rfl

/-- The bytes of a code, by their number. -/
theorem fileBytes_ofNat {n : Nat} (hn : n.isValidChar) :
    (scalar (Char.ofNat n)).fileBytes =
      if n ≤ 0x7F then [UInt8.ofNat n]
      else if n ≤ 0x7FF then [UInt8.ofNat (n / 64 % 32 + 192), UInt8.ofNat (n % 64 + 128)]
      else if n ≤ 0xFFFF then
        [UInt8.ofNat (n / 4096 % 16 + 224), UInt8.ofNat (n / 64 % 64 + 128), UInt8.ofNat (n % 64 + 128)]
      else
        [UInt8.ofNat (n / 262144 % 8 + 240), UInt8.ofNat (n / 4096 % 64 + 128),
          UInt8.ofNat (n / 64 % 64 + 128), UInt8.ofNat (n % 64 + 128)] := by
  have hval : (Char.ofNat n).val.toNat = n := Symbol.toNat_ofNat hn
  simp only [fileBytes, String.utf8EncodeChar, hval]

theorem ofNat_eq {n : Nat} (b : UInt8) (h : n = b.toNat) : UInt8.ofNat n = b := by
  rw [h, UInt8.ofNat_toNat]

/-- **The first glyph takes the first byte and some continuation bytes after it**, and these are the
    bytes it has. -/
theorem exists_taken (a : UInt8) (rest : List UInt8) :
    ∃ taken others, rest = taken ++ others ∧ (∀ b ∈ taken, isTail b = true) ∧
      (first a rest).fileBytes = a :: taken := by
  -- the cases are the numbers of bytes; in all others the byte is stray and takes nothing
  fun_cases first a rest with
  | case1 rest h =>
    have ha : a.toNat < 0x80 := by simpa [UInt8.lt_iff_toNat_lt] using h
    refine ⟨[], rest, rfl, by simp, ?_⟩
    rw [fileBytes_ofNat (.inl (by omega)), if_pos (by omega), UInt8.ofNat_toNat]
  | case2 _ ha b others hb =>
    refine ⟨[b], others, rfl, by simp [hb], ?_⟩
    simp only [UInt8.le_iff_toNat_le, Bool.and_eq_true, decide_eq_true_eq, isTail_iff, tailBits,
      UInt8.toNat_ofNat] at ha hb ⊢
    rw [fileBytes_ofNat (.inl (by omega)), if_neg (by omega), if_pos (by omega),
      ofNat_eq a (by omega), ofNat_eq b (by omega)]
  | case5 _ _ ha b c others hbc =>
    simp only [UInt8.le_iff_toNat_le, Bool.and_eq_true, decide_eq_true_eq, isSecondOfThree_iff,
      UInt8.toNat_ofNat] at ha hbc
    refine ⟨[b, c], others, rfl, by simp [hbc.1.1, hbc.2], ?_⟩
    simp only [isTail_iff, tailBits] at hbc ⊢
    rw [fileBytes_ofNat (by unfold Nat.isValidChar; omega), if_neg (by omega), if_neg (by omega),
      if_pos (by omega), ofNat_eq a (by omega), ofNat_eq b (by omega), ofNat_eq c (by omega)]
  | case8 _ _ _ ha b c d others hbcd =>
    simp only [UInt8.le_iff_toNat_le, Bool.and_eq_true, decide_eq_true_eq, isSecondOfFour_iff,
      UInt8.toNat_ofNat] at ha hbcd
    refine ⟨[b, c, d], others, rfl, by simp [hbcd.1.1.1, hbcd.1.2, hbcd.2], ?_⟩
    simp only [isTail_iff, tailBits] at hbcd ⊢
    rw [fileBytes_ofNat (by unfold Nat.isValidChar; omega), if_neg (by omega), if_neg (by omega),
      if_neg (by omega), ofNat_eq a (by omega), ofNat_eq b (by omega), ofNat_eq c (by omega),
      ofNat_eq d (by omega)]
  | case3 | case4 | case6 | case7 | case9 | case10 | case11 => exact ⟨[], _, rfl, by simp, rfl⟩

/-! ## Characters -/

/-- The first glyph of the bytes of a character is the character, whatever follows. -/
theorem first_of_encodeChar {c : Char} {a : UInt8} {r : List UInt8}
    (h : String.utf8EncodeChar c = a :: r) (rest : List UInt8) : first a (r ++ rest) = scalar c := by
  have hvalid : c.toNat < 0xD800 ∨ 0xDFFF < c.toNat ∧ c.toNat < 0x110000 := c.valid
  have hval : c.val.toNat = c.toNat := rfl
  have hchar : ∀ n, n = c.toNat → scalar (Char.ofNat n) = scalar c := by
    rintro _ rfl
    rw [Char.ofNat_toNat]
  unfold String.utf8EncodeChar at h
  simp only [hval] at h
  generalize c.toNat = v at *
  -- one case for each number of bytes; what the first byte says decides the branch of `first`
  split at h
  · obtain ⟨rfl, rfl⟩ := List.cons.inj h
    simp only [first, UInt8.lt_iff_toNat_lt]
    rw [if_pos (by simp; omega)]
    exact hchar _ (by simp; omega)
  split at h
  · obtain ⟨rfl, rfl⟩ := List.cons.inj h
    simp only [first, UInt8.lt_iff_toNat_lt, UInt8.le_iff_toNat_le, List.cons_append, List.nil_append]
    rw [if_neg (by simp; omega), if_pos (by simp; omega), if_pos (by simp [isTail_iff]; omega)]
    exact hchar _ (by simp [tailBits]; omega)
  split at h
  · obtain ⟨rfl, rfl⟩ := List.cons.inj h
    simp only [first, UInt8.lt_iff_toNat_lt, UInt8.le_iff_toNat_le, List.cons_append, List.nil_append]
    rw [if_neg (by simp; omega), if_neg (by simp; omega), if_pos (by simp; omega),
      if_pos (by simp [isSecondOfThree_iff, isTail_iff]; omega)]
    exact hchar _ (by simp [tailBits]; omega)
  · obtain ⟨rfl, rfl⟩ := List.cons.inj h
    simp only [first, UInt8.lt_iff_toNat_lt, UInt8.le_iff_toNat_le, List.cons_append, List.nil_append]
    rw [if_neg (by simp; omega), if_neg (by simp; omega), if_neg (by simp; omega),
      if_pos (by simp; omega), if_pos (by simp [isSecondOfFour_iff, isTail_iff]; omega)]
    exact hchar _ (by simp [tailBits]; omega)

/-- A continuation byte starts no character. -/
theorem first_of_isTail {a : UInt8} (h : isTail a = true) (rest : List UInt8) :
    first a rest = stray a := by
  obtain ⟨hlo, hhi⟩ := isTail_iff.mp h
  simp only [first, UInt8.lt_iff_toNat_lt, UInt8.le_iff_toNat_le]
  rw [if_neg (by simp; omega), if_neg (by simp; omega), if_neg (by simp; omega),
    if_neg (by simp; omega)]

/-- The bytes of a character start with one that is no continuation byte. -/
theorem exists_encodeChar (c : Char) :
    ∃ a taken, String.utf8EncodeChar c = a :: taken ∧ isTail a = false := by
  obtain ⟨a, taken, h⟩ := List.exists_cons_of_ne_nil (String.utf8EncodeChar_ne_nil (c := c))
  refine ⟨a, taken, h, Bool.eq_false_iff.mpr fun ha => ?_⟩
  have hfirst := first_of_encodeChar h []
  rw [first_of_isTail ha] at hfirst
  cases hfirst

/-! ## Whole texts -/

/-- Once the bytes that belong to a glyph are passed over, the next glyph is read. -/
theorem decodeFrom_length_append (skipped rest : List UInt8) :
    decodeFrom skipped.length (skipped ++ rest) = decode rest := by
  induction skipped with
  | nil => rfl
  | cons b skipped ih => exact ih

/-- Reading goes on behind the bytes of the first glyph. -/
theorem decode_cons {a : UInt8} {taken others : List UInt8}
    (h : (first a (taken ++ others)).fileBytes = a :: taken) :
    decode (a :: (taken ++ others)) = first a (taken ++ others) :: decode others := by
  have hsize : (first a (taken ++ others)).size - 1 = taken.length := by
    rw [← length_fileBytes, h, List.length_cons, Nat.add_sub_cancel]
  show _ :: decodeFrom _ (taken ++ others) = _
  rw [hsize, decodeFrom_length_append]

theorem decode_encodeChar_append (c : Char) (rest : List UInt8) :
    decode (String.utf8EncodeChar c ++ rest) = scalar c :: decode rest := by
  obtain ⟨a, taken, h, -⟩ := exists_encodeChar c
  have hfirst := first_of_encodeChar h rest
  rw [h, List.cons_append, decode_cons (by rw [hfirst]; exact h), hfirst]

/-- **No byte is lost.** -/
theorem allBytes_decode (data : List UInt8) : allBytes (decode data) = data := by
  induction hn : data.length using Nat.strongRecOn generalizing data with
  | ind n ih =>
    cases data with
    | nil => rfl
    | cons a rest =>
      obtain ⟨taken, others, rfl, -, hbytes⟩ := exists_taken a rest
      have hlt : others.length < n := by
        rw [← hn, List.length_cons, List.length_append]
        omega
      rw [decode_cons hbytes, allBytes, List.flatMap_cons, hbytes, ← allBytes, ih _ hlt others rfl]
      rfl

/-- The glyphs come from reading bytes. -/
def IsRead (gs : List Glyph) : Prop := ∃ data, decode data = gs

/-- Such glyphs are read again from their own bytes. -/
theorem IsRead.decode_allBytes {gs : List Glyph} (h : IsRead gs) : decode (allBytes gs) = gs := by
  obtain ⟨data, rfl⟩ := h
  rw [allBytes_decode]

theorem isRead_ofString (s : String) : IsRead (ofString s) := by
  refine ⟨allBytes (ofString s), ?_⟩
  unfold ofString
  induction s.toList with
  | nil => rfl
  | cons c cs ih =>
    show decode (String.utf8EncodeChar c ++ allBytes (cs.map scalar)) = scalar c :: cs.map scalar
    rw [decode_encodeChar_append, ih]

/-- Wherever the bytes of a character stand, the character is read: no glyph before it takes its first
    byte, since that is no continuation byte. -/
theorem mem_decodeFrom (c : Char) (before after : List UInt8) (skip : Nat)
    (hskip : skip ≤ before.length) :
    scalar c ∈ decodeFrom skip (before ++ (String.utf8EncodeChar c ++ after)) := by
  induction before generalizing skip with
  | nil =>
    obtain rfl : skip = 0 := Nat.le_zero.mp hskip
    show scalar c ∈ decode _
    rw [List.nil_append, decode_encodeChar_append]
    exact List.mem_cons_self
  | cons b before ih =>
    rw [List.cons_append]
    cases skip with
    | succ n => exact ih n (Nat.le_of_succ_le_succ hskip)
    | zero =>
      refine List.mem_cons_of_mem _ (ih _ ?_)
      obtain ⟨a, own, h, ha⟩ := exists_encodeChar c
      obtain ⟨taken, others, heq, htails, hbytes⟩ :=
        exists_taken b (before ++ (String.utf8EncodeChar c ++ after))
      rw [← length_fileBytes, hbytes, List.length_cons, Nat.add_sub_cancel]
      apply Nat.le_of_not_lt
      intro hlt
      -- a longer glyph would take the first byte of the character
      have hget : taken[before.length]? = some a := by
        rw [← List.getElem?_append_left hlt, ← heq, h]
        simp
      rw [htails a (List.mem_of_getElem? hget)] at ha
      cases ha

/-- **A character whose bytes are found in a row is one of the characters read.** -/
theorem mem_of_occurs {gs : List Glyph} (h : IsRead gs) {c : Char}
    (hc : String.utf8EncodeChar c <:+: allBytes gs) : scalar c ∈ gs := by
  obtain ⟨before, after, heq⟩ := hc
  rw [← h.decode_allBytes, ← heq, List.append_assoc]
  exact mem_decodeFrom c before after 0 (Nat.zero_le _)

theorem fileBytes_occurs {gs : List Glyph} {g : Glyph} (h : g ∈ gs) : g.fileBytes <:+: allBytes gs := by
  obtain ⟨before, after, rfl⟩ := List.append_of_mem h
  refine ⟨allBytes before, allBytes after, ?_⟩
  simp [allBytes]

/-- A character below 0x80 is its own byte. -/
theorem lt_of_mem_encodeChar {c : Char} (hc : c.toNat < 0x80) {b : UInt8}
    (hb : b ∈ String.utf8EncodeChar c) : b.toNat < 0x80 := by
  have hval : c.val.toNat < 0x80 := hc
  unfold String.utf8EncodeChar at hb
  simp only [if_pos (Nat.le_of_lt_succ hval), List.mem_singleton] at hb
  rw [hb, UInt8.toNat_ofNat']
  omega

/-- A stray byte that was read is none of those that are characters by themselves. -/
theorem le_of_isRead_stray {b : UInt8} (h : IsRead [stray b]) : 0x80 ≤ b.toNat := by
  apply Nat.le_of_not_lt
  intro hlt
  have hfirst : first b [] = scalar (Char.ofNat b.toNat) := by
    unfold first
    rw [if_pos (by simpa [UInt8.lt_iff_toNat_lt] using hlt)]
  have hread : [first b []] = [stray b] := h.decode_allBytes
  rw [hfirst] at hread
  cases List.singleton_inj.mp hread

end Glyph

/-- The search finds what stands in a row. -/
theorem occursIn_iff {part all : List UInt8} : occursIn part all = true ↔ part <:+: all := by
  induction all with
  | nil => simp [occursIn]
  | cons b rest ih =>
    rw [occursIn, Bool.or_eq_true, List.isPrefixOf_iff_prefix, ih, List.infix_cons_iff]

end LetterGrammar
