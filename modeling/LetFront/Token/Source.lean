/-
Sources of tokens: anything that hands out one token at a time and runs dry. A source has a size that gets smaller with
every token, so whoever reads one to its end stops.

Main statement: `drain_list`, draining a list gives the list.
-/
import LetFront.Token.Basic

namespace LetFront

class TokenSource (σ : Type) where
  /-- the next token and the source after it, unless the source is dry -/
  next? : σ → Option (Token × σ)
  size : σ → Nat
  size_lt : ∀ {s t s'}, next? s = some (t, s') → size s' < size s

namespace TokenSource

/-- every token that is left, and the dry source -/
def drain {σ : Type} [TokenSource σ] (s : σ) : List Token × σ :=
  match _h : next? s with
  | none => ([], s)
  | some (t, s') => (t :: (drain s').1, (drain s').2)
termination_by size s
decreasing_by all_goals exact size_lt _h

theorem drain_of_none {σ : Type} [TokenSource σ] {s : σ} (h : next? s = none) : (drain s).1 = [] := by
  rw [drain.eq_def]
  split
  · rfl
  · next h' => rw [h] at h'; cases h'

theorem drain_of_some {σ : Type} [TokenSource σ] {s s' : σ} {t : Token} (h : next? s = some (t, s')) :
    (drain s).1 = t :: (drain s').1 := by
  rw [drain.eq_def]
  split
  · next h' => rw [h] at h'; cases h'
  · next h' => rw [h] at h'; cases h'; rfl

instance : TokenSource (List Token) where
  next?
    | [] => none
    | t :: ts => some (t, ts)
  size := List.length
  size_lt {s t s'} h := by
    cases s with
    | nil => simp at h
    | cons a as =>
      simp only [Option.some.injEq, Prod.mk.injEq] at h
      simp [h.2]

theorem drain_list (ts : List Token) : drain ts = (ts, []) := by
  induction ts with
  | nil => rw [drain.eq_def]; rfl
  | cons t ts ih =>
    rw [drain.eq_def]
    simp [next?, ih]

end TokenSource

end LetFront
