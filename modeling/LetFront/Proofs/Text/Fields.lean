/-
Where a part of a text ends. A part ends in front of a mark that does not stand in it, so what is written in this way is
found again. Numbers are such parts: they are written in decimal digits, with a minus sign in front of a negative one.

Main statements: `append_cons_inj`, a part in front of a mark is found again; `isNumeral_toString`, what numbers are
written with; `toString_append_inj`, the number in front of a mark.
-/
import Mathlib

namespace LetFront.Text

/-- **A part ends in front of a mark** that does not stand in it. -/
theorem append_cons_inj {mark : Char} {as as' bs bs' : List Char} (h : mark ∉ as) (h' : mark ∉ as')
    (heq : as ++ mark :: bs = as' ++ mark :: bs') : as = as' ∧ bs = bs' := by
  have hsplit := congrArg (List.splitOn mark) heq
  rw [List.splitOn_append_cons_self_of_not_mem h, List.splitOn_append_cons_self_of_not_mem h'] at hsplit
  obtain ⟨rfl, -⟩ := List.cons.inj hsplit
  exact ⟨rfl, (List.cons.inj (List.append_cancel_left heq)).2⟩

/-! ## Numbers -/

/-- a character that numbers are written with -/
def isNumeral (c : Char) : Bool := c.isDigit || c = '-'

theorem isNumeral_repr (n : ℕ) : ∀ c ∈ (Nat.repr n).toList, isNumeral c = true := by
  intro c hc
  rw [Nat.toList_repr] at hc
  have hdigit := Nat.isDigit_of_mem_toDigits (by decide) (by decide) hc
  simp [isNumeral, hdigit]

/-- **Numbers are written in digits and signs.** -/
theorem isNumeral_toString (i : ℤ) : ∀ c ∈ (toString i).toList, isNumeral c = true := by
  intro c hc
  cases i with
  | ofNat n => exact isNumeral_repr n c hc
  | negSucc n =>
    change c ∈ ("-" ++ Nat.repr (n + 1)).toList at hc
    rw [String.toList_append, List.mem_append] at hc
    rcases hc with hc | hc
    · obtain rfl := List.mem_singleton.1 hc
      decide
    · exact isNumeral_repr (n + 1) c hc

/-- **A number ends in front of any other character.** -/
theorem toString_append_inj {i j : ℤ} {mark : Char} (hmark : isNumeral mark = false) {bs bs' : List Char}
    (heq : (toString i).toList ++ mark :: bs = (toString j).toList ++ mark :: bs') : i = j ∧ bs = bs' := by
  have hend : ∀ k : ℤ, mark ∉ (toString k).toList := by
    intro k hmem
    rw [isNumeral_toString k mark hmem] at hmark
    cases hmark
  obtain ⟨hnumber, hrest⟩ := append_cons_inj (hend i) (hend j) heq
  exact ⟨Int.repr_injective (String.toList_inj.1 hnumber), hrest⟩

end LetFront.Text
