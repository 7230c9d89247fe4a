/-
Pointing in colour. What is pointed at in a line is painted where it stands; wherever that is, painting adds escape
sequences only, and whether it can be pointed at has nothing to do with colours.

Main statements: `tinted_underlined`, pointing between any two positions; `pointAt_alike`, a place is pointed at, or
cannot be, whether or not it is painted.
-/
import LetFront.Proofs.Report.Plain
import LetFront.Proofs.Text.Lines
import LetFront.Report.Diagnosis

namespace LetFront

/-- both gave values that `R` relates, or both ended with the same error, which satisfies `P` -/
inductive EndAlike {ε α β : Type} (P : ε → Prop) (R : α → β → Prop) : Except ε α → Except ε β → Prop
  | ok {a : α} {b : β} (h : R a b) : EndAlike P R (.ok a) (.ok b)
  | error {e : ε} (h : P e) : EndAlike P R (.error e) (.error e)

theorem EndAlike.mono {ε α β : Type} {P : ε → Prop} {R R' : α → β → Prop} {x : Except ε α} {y : Except ε β}
    (h : EndAlike P R x y) (hR : ∀ a b, R a b → R' a b) : EndAlike P R' x y := by
  cases h with
  | ok h => exact .ok (hR _ _ h)
  | error h => exact .error h

theorem EndAlike.map {ε α β γ δ : Type} {P : ε → Prop} {R : α → β → Prop} {S : γ → δ → Prop} {x : Except ε α}
    {y : Except ε β} {f : α → γ} {g : β → δ} (h : EndAlike P R x y) (hf : ∀ a b, R a b → S (f a) (g b)) :
    EndAlike P S (f <$> x) (g <$> y) := by
  cases h with
  | ok h => exact .ok (hf _ _ h)
  | error h => exact .error h

/-- what the user is told of a failure is plain -/
structure Failure.IsPlain (f : Failure) : Prop where
  label : LetFront.IsPlain f.label
  text : LetFront.IsPlain f.text

/-! ## Pointing -/

theorem Text.mem_of_mem_takeTo {α : Type} {xs : List α} {i : ℤ} {x : α} (h : x ∈ Text.takeTo xs i) : x ∈ xs :=
  List.mem_of_mem_take h

theorem Text.mem_of_mem_dropTo {α : Type} {xs : List α} {i : ℤ} {x : α} (h : x ∈ Text.dropTo xs i) : x ∈ xs :=
  List.mem_of_mem_drop h

theorem Text.mem_of_elementAt {α : Type} {xs : List α} {i : ℤ} {x : α} (h : Text.elementAt xs i = .ok x) :
    x ∈ xs := by
  unfold Text.elementAt at h
  split at h
  · next hx =>
    obtain ⟨j, -, hj⟩ := Option.bind_eq_some_iff.1 hx
    exact Except.ok.inj h ▸ List.mem_of_getElem? hj
  · cases h

/-- **Pointing tints the line**, between any two positions. -/
theorem tinted_underlined {line : List Char} (h : '\x1b' ∉ line) (start stop : ℤ) :
    Tinted (underlined true line start stop) (underlined false line start stop) := by
  set last := max stop (start + 1)
  have hfront : IsPlain (String.ofList (Text.takeTo line start)) :=
    isPlain_ofList (mt Text.mem_of_mem_takeTo h)
  have hpart : IsPlain (String.ofList (Text.slice line start last)) :=
    isPlain_ofList fun hmem => h (Text.mem_of_mem_takeTo (Text.mem_of_mem_dropTo hmem))
  have hbehind : IsPlain (String.ofList (Text.dropTo line last)) :=
    isPlain_ofList (mt Text.mem_of_mem_dropTo h)
  have hindent : IsPlain (repeated ' ' start.toNat) := isPlain_replicate (by decide) _
  have hsigns : IsPlain ("^" ++ repeated '~' (last - start - 1).toNat) :=
    (show IsPlain "^" by decide).append (isPlain_replicate (by decide) _)
  have hmargin : Tinted "  " "  " := (show IsPlain "  " by decide).tinted
  have hbreak : Tinted "\n" "\n" := (show IsPlain "\n" by decide).tinted
  have hshown := ((hmargin.append hfront.tinted).append (tinted_alarm hpart)).append hbehind.tinted
  exact (((hshown.append hbreak).append hmargin).append hindent.tinted).append (tinted_alarm hsigns)

theorem Failure.isPlain_hugeCount : hugeCount.IsPlain := ⟨by decide, by decide⟩

/-- **A part of a line is pointed at in the same way**, or its signs cannot be counted, whether or not it is painted. -/
theorem diagnose_alike {line : List Char} (h : '\x1b' ∉ line) (room : ℕ) (start stop : ℤ) :
    EndAlike Failure.IsPlain Tinted (diagnose true room line start stop) (diagnose false room line start stop) := by
  unfold diagnose
  split
  · exact .ok (tinted_underlined h start stop)
  · exact .error Failure.isPlain_hugeCount

theorem Failure.isPlain_noLine (fault : Text.PositionFault) : (noLine fault).IsPlain := by
  cases fault <;> exact ⟨by decide, by decide⟩

theorem Failure.isPlain_noColumn (fault : Text.PositionFault) : (noColumn fault).IsPlain := by
  cases fault <;> exact ⟨by decide, by decide⟩

/-- **A place is pointed at in the same way**, or fails to be in the same way, whether or not it is painted. -/
theorem pointAt_alike {source : String} (h : IsPlain source) (place : Location) :
    EndAlike Failure.IsPlain (Option.Rel Tinted) (pointAt true source place) (pointAt false source place) := by
  unfold pointAt
  dsimp only
  split
  · split
    · exact .error (Failure.isPlain_noLine _)
    · next line hline =>
      split
      · exact .error (Failure.isPlain_noColumn _)
      · have hplain : '\x1b' ∉ line := fun hmem =>
          h ((Text.sublist_of_mem_lines (Text.mem_of_elementAt hline)).subset hmem)
        exact (diagnose_alike hplain _ _ _).map fun _ _ htinted => .some htinted
  · exact .ok .none

end LetFront
