/-
Sets of characters given as closed ranges of code points. A table of ranges is data of a standard; the modules that
hold one say which property it lists, and ask it through `inRanges`.
-/

namespace LetFront.Text

/-- whether `n` lies in one of the closed ranges -/
def inRanges (ranges : List (Nat × Nat)) (n : Nat) : Bool :=
  ranges.any fun r => r.1 ≤ n && n ≤ r.2

theorem inRanges_iff (ranges : List (Nat × Nat)) (n : Nat) :
    inRanges ranges n = true ↔ ∃ r ∈ ranges, r.1 ≤ n ∧ n ≤ r.2 := by
  simp [inRanges]

end LetFront.Text
