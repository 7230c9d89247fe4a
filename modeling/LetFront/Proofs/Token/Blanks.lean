/-
Blanks in lexemes. Letters, digits and the other characters that a lexeme goes on with are no blanks. So a lexeme may be
a blank that fits nowhere, but never has one behind its first character; and a line feed, which is white space for the
scanner too, stands in no lexeme at all.

Main statements: `Text.not_isAlphanumeric_of_isBlank`, the tables of blanks and of alphanumeric characters are disjoint;
`Lexeme.Fits.not_isBlank_of_mem_tail`, a lexeme does not go on with a blank; `Lexeme.Fits.feed_not_mem`, nor has it a
line feed.
-/
import Mathlib
import LetFront.Proofs.Token.Grammar
import LetFront.Text.Blank

namespace LetFront

namespace Text

theorem not_inRanges_of_disjoint {as bs : List (ℕ × ℕ)} (h : ∀ b ∈ bs, ∀ a ∈ as, a.2 < b.1 ∨ b.2 < a.1) {n : ℕ}
    (hn : inRanges bs n = true) : inRanges as n = false := by
  obtain ⟨b, hb, hlow, hhigh⟩ := (inRanges_iff bs n).1 hn
  by_contra hin
  obtain ⟨a, ha, hlow', hhigh'⟩ := (inRanges_iff as n).1 (by simpa using hin)
  have hdisjoint := h b hb a ha
  omega

/-- inside ASCII the alphanumeric characters lie between the digit zero and the letter z -/
theorem toNat_of_isAlphanum {c : Char} (h : c.isAlphanum = true) : 48 ≤ c.toNat ∧ c.toNat ≤ 122 := by
  simp only [Char.isAlphanum, Char.isAlpha, Char.isUpper, Char.isLower, Char.isDigit, Bool.or_eq_true,
    Bool.and_eq_true, decide_eq_true_eq, ge_iff_le, UInt32.le_iff_toNat_le] at h
  change ((65 ≤ c.toNat ∧ c.toNat ≤ 90) ∨ (97 ≤ c.toNat ∧ c.toNat ≤ 122)) ∨ (48 ≤ c.toNat ∧ c.toNat ≤ 57) at h
  omega

/-- **No blank is alphanumeric.** -/
theorem not_isAlphanumeric_of_isBlank {c : Char} (h : isBlank c = true) : isAlphanumeric c = false := by
  have htables : ∀ b ∈ blankRanges, ∀ a ∈ alphanumericRanges, a.2 < b.1 ∨ b.2 < a.1 := by decide +kernel
  have hoff : ∀ b ∈ blankRanges, b.2 < 48 ∨ 122 < b.1 := by decide
  unfold isAlphanumeric
  split
  · by_contra halnum
    obtain ⟨b, hb, hlow, hhigh⟩ := (inRanges_iff _ _).1 h
    have hascii := toNat_of_isAlphanum (by simpa using halnum)
    have hb := hoff b hb
    omega
  · exact not_inRanges_of_disjoint htables h

end Text

theorem not_isBlank_of_isWordChar {c : Char} (h : isWordChar c = true) : Text.isBlank c = false := by
  by_contra hblank
  have hblank : Text.isBlank c = true := by simpa using hblank
  rcases Bool.or_eq_true_iff.1 h with halnum | hunderscore
  · rw [Text.not_isAlphanumeric_of_isBlank hblank] at halnum
    cases halnum
  · rw [of_decide_eq_true hunderscore] at hblank
    exact absurd hblank (by decide)

namespace Lexeme

/-- **A lexeme does not go on with a blank**, though it may be one. -/
theorem Fits.not_isBlank_of_mem_tail {x : Lexeme} {after : List Char} (h : x.Fits after) :
    ∀ c ∈ x.text.tail, Text.isBlank c = false := by
  have hdigit : ∀ c, isDigit c = true → Text.isBlank c = false :=
    fun c hc => not_isBlank_of_isWordChar (isWordChar_of_isDigit hc)
  have hpoint : Text.isBlank '.' = false := by decide
  cases h with
  | word hw _ _ => exact fun c hc => not_isBlank_of_isWordChar (hw c (List.mem_of_mem_tail hc))
  | int _ hd _ => exact fun c hc => hdigit c (hd c (List.mem_of_mem_tail hc))
  | float hd he _ =>
    intro c hc
    rcases List.mem_append.1 (List.mem_of_mem_tail hc) with hc | hc
    · exact hdigit c (hd c hc)
    · rcases List.mem_cons.1 hc with rfl | hc
      · exact hpoint
      · exact hdigit c (he c hc)
  | twoPoints _ hd he =>
    intro c hc
    have hc := List.mem_of_mem_tail hc
    simp only [List.mem_append, List.mem_cons, List.not_mem_nil, or_false] at hc
    rcases hc with hc | rfl | hc | rfl
    · exact hdigit c (hd c hc)
    · exact hpoint
    · exact hdigit c (he c hc)
    · exact hpoint
  | double _ _ =>
    intro c hc
    rw [List.mem_singleton.1 hc]
    decide
  | _ => exact List.forall_mem_nil _

/-- **No lexeme has a line feed in it.** -/
theorem Fits.feed_not_mem {x : Lexeme} {after : List Char} (h : x.Fits after) (hs : ¬ StartsGap (x.text ++ after)) :
    '\n' ∉ x.text := by
  intro hfeed
  obtain ⟨c, cs, hx⟩ := List.exists_cons_of_ne_nil h.text_ne_nil
  rw [hx] at hfeed hs
  rcases List.mem_cons.1 hfeed with rfl | hfeed
  · exact hs (.inl ⟨'\n', rfl, by decide⟩)
  · have hblank := h.not_isBlank_of_mem_tail '\n' (by rwa [hx])
    exact absurd hblank (by decide)

end Lexeme

end LetFront
