/-
Signed positions in a list. A negative position counts from the end. A cut clamps such a position to the list, so it
never fails; asking for one element fails off either end.

To ask for an element a position must also fit 64 bits. One that does not is not off an end, but no position at all.
-/

namespace LetFront.Text

/-- the cut position that `i` stands for in a list of `n` elements -/
def clampIndex (n : Nat) (i : Int) : Nat :=
  if i < 0 then (n + i).toNat else min i.toNat n

/-- the elements in front of position `stop` -/
def takeTo {α : Type} (xs : List α) (stop : Int) : List α :=
  xs.take (clampIndex xs.length stop)

/-- the elements from position `start` on -/
def dropTo {α : Type} (xs : List α) (start : Int) : List α :=
  xs.drop (clampIndex xs.length start)

/-- the elements from position `start` on and in front of position `stop` -/
def slice {α : Type} (xs : List α) (start stop : Int) : List α :=
  dropTo (takeTo xs stop) (clampIndex xs.length start)

/-- the place of the one element that `i` stands for in a list of `n` elements -/
def elementIndex? (n : Nat) (i : Int) : Option Nat :=
  if 0 ≤ i then (if i < n then some i.toNat else none)
  else if 0 ≤ n + i then some (n + i).toNat else none

/-- why there is no element at a position -/
inductive PositionFault where
  | offEnd
  | unfit
  deriving DecidableEq, Repr

/-- whether `i` fits 64 bits -/
def isPosition (i : Int) : Bool := -0x8000000000000000 ≤ i && i < 0x8000000000000000

/-- why `i` is off the end of a list -/
def faultAt (i : Int) : PositionFault := if isPosition i then .offEnd else .unfit

/-- the element that `i` stands for -/
def elementAt {α : Type} (xs : List α) (i : Int) : Except PositionFault α :=
  match (elementIndex? xs.length i).bind (xs[·]?) with
  | some x => .ok x
  | none => .error (faultAt i)

theorem clampIndex_natCast (n i : Nat) : clampIndex n i = min i n := by
  unfold clampIndex
  split <;> omega

/-- a cut in two parts in front of `j` -/
theorem takeTo_append_slice {α : Type} (xs : List α) {i j : Nat} (h : i ≤ j) :
    takeTo xs i ++ slice xs i j = takeTo xs j := by
  have hfront : takeTo xs i = (takeTo xs j).take (clampIndex (takeTo xs j).length (clampIndex xs.length i)) := by
    simp only [takeTo, clampIndex_natCast, List.length_take, List.take_take]
    congr 1
    omega
  rw [hfront]
  exact List.take_append_drop _ _

theorem elementAt_natCast {α : Type} {xs : List α} {i : Nat} {x : α} (h : xs[i]? = some x) :
    elementAt xs i = .ok x := by
  obtain ⟨hi, -⟩ := List.getElem?_eq_some_iff.1 h
  have hindex : elementIndex? xs.length i = some i := by
    unfold elementIndex?
    rw [if_pos (by omega), if_pos (by omega), Int.toNat_natCast]
  unfold elementAt
  rw [hindex, Option.bind_some, h]

theorem takeTo_append_dropTo {α : Type} (xs : List α) (i : Int) : takeTo xs i ++ dropTo xs i = xs :=
  List.take_append_drop _ _

end LetFront.Text
