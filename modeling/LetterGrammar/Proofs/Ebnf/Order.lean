import LetterGrammar.Ebnf.Reader
import LetterGrammar.Proofs.Text

/-!
# The order of productions

The productions of a text are met in any order, and their offsets put them back in the order of the text.
That gives one result, whatever the text: every token starts behind the one before it, the reader never
goes back, and a production starts where its name stands, so no two productions share an offset.

## Contents

- **`Standing`**, **`standing_tokenize`**: the tokens of a text stand one behind the other.
- **`Forward`**, **`forward`**: no part of the reader goes back.
- **`productions_ascend`**, **`parse_ascends`**: the offsets of productions increase along the text.
- **`inTextOrder_eq`**: there is one way to sort them.
- **`readAlong_eq`**: no walk shows in the grammar that is read.
-/

namespace LetterGrammar
namespace Ebnf

/-! ## Tokens -/

theorem offset_advance (place : Position) (g : Glyph) :
    (advance place g).offset = place.offset + g.size := by
  unfold advance
  split <;> rfl

theorem offset_le_foldl (gs : List Glyph) (place : Position) :
    place.offset ≤ (gs.foldl advance place).offset := by
  induction gs generalizing place with
  | nil => exact Nat.le_refl _
  | cons g gs ih =>
      have hrest := ih (advance place g)
      rw [offset_advance] at hrest
      exact Nat.le_trans (Nat.le_add_right _ _) hrest

/-- Tokens that stand one behind the other, none before the offset. The last one is the end of the text. -/
structure Standing (offset : Nat) (ts : List Token) : Prop where
  from_offset : ∀ t ∈ ts, offset ≤ t.place.offset
  ascending : ts.Pairwise fun t t' => t.place.offset < t'.place.offset
  ended : ts.getLast?.map Token.kind = some .eof

namespace Standing

variable {offset : Nat} {t : Token} {ts ts' : List Token}

theorem mono {offset' : Nat} (h : Standing offset ts) (hle : offset' ≤ offset) : Standing offset' ts :=
  ⟨fun t ht => Nat.le_trans hle (h.from_offset t ht), h.ascending, h.ended⟩

/-- A token before the others. -/
theorem cons (h : Standing offset ts) (hlt : t.place.offset < offset) :
    Standing t.place.offset (t :: ts) where
  from_offset := by
    intro t' ht'
    rcases List.mem_cons.mp ht' with rfl | ht'
    · exact Nat.le_refl _
    · exact Nat.le_trans (Nat.le_of_lt hlt) (h.from_offset t' ht')
  ascending := by
    refine .cons (fun t' ht' => ?_) h.ascending
    exact Nat.lt_of_lt_of_le hlt (h.from_offset t' ht')
  ended := by
    obtain ⟨last, hlast, hkind⟩ := Option.map_eq_some_iff.mp h.ended
    rw [List.getLast?_cons, hlast]
    exact congrArg some hkind

/-- What is left of the tokens stands as they do. -/
theorem suffix (h : Standing offset ts) (hsuffix : t :: ts' <:+ ts) :
    Standing t.place.offset (t :: ts') := by
  obtain ⟨before, rfl⟩ := hsuffix
  have hascending := (List.pairwise_append.mp h.ascending).2.1
  refine ⟨fun t' ht' => ?_, hascending, ?_⟩
  · rcases List.mem_cons.mp ht' with rfl | ht'
    · exact Nat.le_refl _
    · exact Nat.le_of_lt (List.rel_of_pairwise_cons hascending ht')
  · have hended := h.ended
    rw [List.getLast?_append, List.getLast?_cons] at hended
    rw [List.getLast?_cons]
    exact hended

end Standing

/-- What stands at the head of a text gives a token or none, and the other tokens start further on. -/
theorem list_tokensFrom_cons (comment : Option Position) (place : Position) (g : Glyph)
    (rest : List Glyph) :
    ∃ (comment' : Option Position) (next : Position) (n : Nat) (kind? : Option TokenClass)
      (taken : List Glyph), place.offset < next.offset ∧
      (tokensFrom comment place (g :: rest)).list =
        (kind?.map fun kind => ⟨kind, taken, place⟩).toList
          ++ (tokensFrom comment' next (rest.drop n)).list := by
  have hnext : ∀ taken : List Glyph, place.offset < ((g :: taken).foldl advance place).offset := by
    intro taken
    refine Nat.lt_of_lt_of_le ?_ (offset_le_foldl taken (advance place g))
    rw [offset_advance]
    exact Nat.lt_add_of_pos_right g.size_pos
  rw [tokensFrom]
  obtain ⟨kind?, n, complaints⟩ := lexeme g.char (rest.map Glyph.char)
  cases kind? with
  | none => exact ⟨_, _, n, none, [], hnext (rest.take n), rfl⟩
  | some kind => exact ⟨_, _, n, some kind, _, hnext (rest.take n), rfl⟩

/-- The tokens of a text that starts at a place stand one behind the other, from that place on. -/
theorem standing_tokensFrom (comment : Option Position) (place : Position) (text : List Glyph) :
    Standing place.offset (tokensFrom comment place text).list := by
  induction hlen : text.length using Nat.strongRecOn generalizing comment place text with
  | ind len ih =>
      cases text with
      | nil =>
          rw [tokensFrom]
          exact ⟨by simp, List.pairwise_singleton _ _, rfl⟩
      | cons g rest =>
          obtain ⟨comment', next, n, kind?, taken, hlt, hlist⟩ := list_tokensFrom_cons comment place g rest
          have hshort : (rest.drop n).length < len := by
            rw [← hlen, List.length_drop, List.length_cons]
            omega
          have hrest := ih _ hshort comment' next _ rfl
          rw [hlist]
          cases kind? with
          | none => exact hrest.mono (Nat.le_of_lt hlt)
          | some kind => exact hrest.cons (t := ⟨kind, taken, place⟩) hlt

theorem standing_tokenize (filename : String) (text : List Glyph) :
    ∃ offset, Standing offset (tokenize filename text).list := by
  unfold tokenize
  split
  · exact ⟨_, standing_tokensFrom none _ _⟩
  · split
    · exact ⟨_, standing_tokensFrom none _ _⟩
    · exact ⟨_, standing_tokensFrom none _ _⟩

/-! ## Readings go forward -/

namespace Reading

/-- The tokens that a reading has before it. -/
def tokens (r : Reading) : List Token := r.current :: r.rest

theorem next_suffix (r : Reading) : r.next.tokens <:+ r.tokens := by
  obtain ⟨current, rest, complaints⟩ := r
  cases rest with
  | nil => exact List.suffix_refl _
  | cons t ts => exact List.suffix_cons current (t :: ts)

/-- A token is passed over whatever its class is. -/
theorem tokens_expect (r : Reading) (kind : TokenClass) : (r.expect kind).tokens = r.next.tokens := by
  unfold expect
  split
  · rfl
  · obtain ⟨current, rest, complaints⟩ := r
    cases rest <;> rfl

theorem expect_suffix (r : Reading) (kind : TokenClass) : (r.expect kind).tokens <:+ r.tokens := by
  rw [tokens_expect]
  exact r.next_suffix

end Reading

theorem rangeEnd_suffix (r : Reading) : (rangeEnd r).tokens <:+ r.tokens := by
  unfold rangeEnd
  split
  · exact r.next_suffix
  · exact r.expect_suffix .string

/-- With so much fuel, no part of the reader goes back. -/
structure Forward (fuel : Nat) : Prop where
  expression : ∀ r, (expression fuel r).2.tokens <:+ r.tokens
  alternatives : ∀ r, (alternatives fuel r).2.tokens <:+ r.tokens
  sequence : ∀ r, (sequence fuel r).2.tokens <:+ r.tokens
  terms : ∀ r, (terms fuel r).2.tokens <:+ r.tokens
  term : ∀ r, (term fuel r).2.tokens <:+ r.tokens

namespace Forward

variable {fuel : Nat} (h : Forward fuel) (r : Reading)
include h

theorem expression_succ : (Ebnf.expression (fuel + 1) r).2.tokens <:+ r.tokens := by
  unfold Ebnf.expression
  exact (h.alternatives _).trans (h.sequence r)

theorem alternatives_succ : (Ebnf.alternatives (fuel + 1) r).2.tokens <:+ r.tokens := by
  unfold Ebnf.alternatives
  split
  · exact (h.alternatives _).trans ((h.sequence _).trans r.next_suffix)
  · exact List.suffix_refl _

theorem sequence_succ : (Ebnf.sequence (fuel + 1) r).2.tokens <:+ r.tokens := by
  have hterms := h.terms r
  unfold Ebnf.sequence
  split
  · next hread => rwa [hread] at hterms
  · next hread => rwa [hread] at hterms
  · next hread => rwa [hread] at hterms

theorem terms_succ : (Ebnf.terms (fuel + 1) r).2.tokens <:+ r.tokens := by
  have hterm := h.term r
  unfold Ebnf.terms
  split
  · next hread => rwa [hread] at hterm
  · next hread =>
    rw [hread] at hterm
    exact (h.terms _).trans hterm

/-- A term in brackets ends behind the closing one. -/
theorem enclosed (close : TokenClass) :
    ((Ebnf.expression fuel r.next).2.expect close).tokens <:+ r.tokens :=
  ((Reading.expect_suffix _ close).trans (h.expression _)).trans r.next_suffix

theorem term_succ : (Ebnf.term (fuel + 1) r).2.tokens <:+ r.tokens := by
  have hrange : (rangeEnd r.next.next).tokens <:+ r.tokens :=
    ((rangeEnd_suffix _).trans (Reading.next_suffix _)).trans r.next_suffix
  unfold Ebnf.term
  dsimp only
  -- a name, the two kinds of literals, the three kinds of brackets, and no term
  split
  · exact r.next_suffix
  · split
    · exact hrange
    · exact r.next_suffix
  · split
    · exact hrange
    · exact r.next_suffix
  · exact h.enclosed r _
  · exact h.enclosed r _
  · exact h.enclosed r _
  · exact List.suffix_refl _

end Forward

/-- **No part of the reader goes back**, by induction on the fuel that all parts share. -/
theorem forward (fuel : Nat) : Forward fuel := by
  induction fuel with
  | zero =>
      -- without fuel every part stays where it is
      have hstay : ∀ r : Reading, r.tokens <:+ r.tokens := fun r => List.suffix_refl r.tokens
      exact ⟨hstay, hstay, hstay, hstay, hstay⟩
  | succ fuel ih =>
      exact ⟨ih.expression_succ, ih.alternatives_succ, ih.sequence_succ, ih.terms_succ, ih.term_succ⟩

/-! ## Offsets of productions -/

/-- A production starts at the current token, and what is left is left behind that token. -/
theorem production_forward (r : Reading) :
    (production r).1.place = r.current.place ∧ (production r).2.tokens <:+ r.next.tokens := by
  have hname : ((r.expect .ident).expect (.sign '=')).tokens <:+ r.next.tokens := by
    rw [← r.tokens_expect .ident]
    exact Reading.expect_suffix _ _
  unfold production
  refine ⟨rfl, (Reading.expect_suffix _ _).trans ?_⟩
  split
  · exact hname
  · exact ((forward _).expression _).trans hname

/-- Productions one behind the other. -/
def Ascend (ps : List Production) : Prop :=
  ps.Pairwise fun p q => p.place.offset < q.place.offset

/-- **Each production starts behind those before it**: its name is the token that was reached, and the
    reader has then passed over that token. -/
theorem productions_ascend (count : Nat) {known : List Production} {r : Reading} {offset : Nat}
    (hr : Standing offset r.tokens) (hknown : Ascend known)
    (hbefore : ∀ p ∈ known, p.place.offset < r.current.place.offset) :
    Ascend (productions count known r).1 := by
  induction count generalizing known r offset with
  | zero => exact hknown
  | succ count ih =>
      unfold productions
      split
      · exact hknown
      · next hkind =>
        obtain ⟨hplace, hleft⟩ := production_forward r
        -- the current token is not the last one, so the reader goes on to the next
        have hnext : r.next.tokens = r.rest := by
          obtain ⟨current, rest, complaints⟩ := r
          cases rest with
          | nil => exact absurd (Option.some.inj hr.ended) hkind
          | cons t ts => rfl
        rw [hnext] at hleft
        have hahead : r.current.place.offset < (production r).2.current.place.offset :=
          List.rel_of_pairwise_cons hr.ascending (hleft.subset List.mem_cons_self)
        have hr' : Standing _ (production r).2.tokens :=
          hr.suffix (hleft.trans (List.suffix_cons _ _))
        have hbefore' : ∀ p ∈ known, p.place.offset < (production r).2.current.place.offset :=
          fun p hp => Nat.lt_trans (hbefore p hp) hahead
        dsimp only
        split
        · exact ih hr' hknown hbefore'
        · refine ih hr' (List.pairwise_append.mpr ⟨hknown, List.pairwise_singleton _ _, ?_⟩) ?_
          · intro p hp q hq
            rw [List.mem_singleton.mp hq, hplace]
            exact hbefore p hp
          · refine List.forall_mem_append.mpr ⟨hbefore', List.forall_mem_singleton.mpr ?_⟩
            rw [hplace]
            exact hahead

/-- **The offsets of productions increase along a text**, whatever the text. -/
theorem parse_ascends {filename : String} {text : List Glyph} {ps : List Production}
    (h : parse filename text = .ok ps) : Ascend ps := by
  obtain ⟨offset, hstanding⟩ := standing_tokenize filename text
  unfold parse at h
  generalize (tokenize filename text).list = tokens at h hstanding
  cases tokens with
  | nil => exact absurd hstanding.ended (by simp)
  | cons t ts =>
      have hps : Ascend (productions (ts.length + 1) [] ⟨t, ts, []⟩).1 :=
        productions_ascend (ts.length + 1) hstanding .nil (by simp)
      unfold ofTokens at h
      dsimp only at h
      split at h
      · exact Except.ok.inj h ▸ hps
      · cases h

/-! ## Sorting by offsets -/

/-- **There is one way to sort productions that ascend**, whatever order they come in. -/
theorem inTextOrder_eq {ps qs : List Production} (hperm : qs.Perm ps) (h : Ascend ps) :
    inTextOrder qs = ps := by
  have hsorted : (inTextOrder qs).Pairwise fun p q => p.place.offset ≤ q.place.offset :=
    pairwise_mergeSort_key (fun p => p.place.offset) Nat.le_trans Nat.le_total qs
  have hle : ps.Pairwise fun p q => p.place.offset ≤ q.place.offset := h.imp Nat.le_of_lt
  refine List.Perm.eq_of_pairwise ?_ hsorted hle ((List.mergeSort_perm _ _).trans hperm)
  intro p q hp hq hpq hqp
  have hoffsets : (ps.map fun p => p.place.offset).Nodup := List.pairwise_map.mpr (h.imp Nat.ne_of_lt)
  have hp : p ∈ ps := hperm.subset (List.mem_mergeSort.mp hp)
  exact List.inj_on_of_nodup_map hoffsets hp hq (Nat.le_antisymm hpq hqp)

/-- **No walk shows in the grammar that is read.** -/
theorem readAlong_eq (walk : Walk) (filename : String) (text : List Glyph) :
    readAlong walk filename text = read filename text := by
  unfold read readAlong
  cases hparse : parse filename text with
  | error f => rfl
  | ok ps =>
      have h := parse_ascends hparse
      show grammarOf (walk.order ps) = grammarOf ps
      unfold grammarOf
      rw [inTextOrder_eq (walk.perm ps) h, inTextOrder_eq (.refl ps) h]

end Ebnf
end LetterGrammar
