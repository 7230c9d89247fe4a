/-
Texts without their colours. An escape sequence is the escape character, an opening bracket, digits and the letter m;
`unpainted` takes every one of them out of a text. Where a text of parts is unpainted, no sequence may begin in one
part and end in the next, so the parts are described with whatever follows them.

`IsPlain s`: the escape character is not in the text. `Tinted s t`: without its escape sequences `s` is `t`, whatever
follows it.

Main statements: `Tinted.append`, the parts of a text are unpainted one by one; `tinted_paint`, painting adds nothing but
escape sequences; `Tinted.unpainted_eq`, what is left of a tinted text; `tinted_line`, no sequence goes on over the end of a
line.
-/
import Mathlib.Tactic
import LetFront.Report.Paint
import LetFront.Text.Quoted

namespace LetFront

/-- the text behind an escape sequence, if one stands at the front -/
def afterEscape? : List Char → Option (List Char)
  | '\x1b' :: '[' :: cs =>
    match cs.takeWhile Char.isDigit, cs.dropWhile Char.isDigit with
    | _ :: _, 'm' :: rest => some rest
    | _, _ => none
  | _ => none

theorem length_afterEscape?_lt {cs rest : List Char} (h : afterEscape? cs = some rest) : rest.length < cs.length := by
  unfold afterEscape? at h
  split at h
  · next cs =>
    split at h
    · next _ _ rest' _ hdrop =>
      obtain rfl := Option.some.inj h
      have hle := (List.dropWhile_suffix Char.isDigit (l := cs)).length_le
      rw [hdrop] at hle
      simp only [List.length_cons] at hle ⊢
      omega
    · cases h
  · cases h

/-- a text without its escape sequences -/
def withoutEscapes (cs : List Char) : List Char :=
  match _h : afterEscape? cs with
  | some rest => withoutEscapes rest
  | none =>
    match cs with
    | [] => []
    | c :: cs => c :: withoutEscapes cs
termination_by cs.length
decreasing_by
  · exact length_afterEscape?_lt _h
  · simp

def unpainted (s : String) : String := String.ofList (withoutEscapes s.toList)

def IsPlain (s : String) : Prop := '\x1b' ∉ s.toList

instance (s : String) : Decidable (IsPlain s) := inferInstanceAs (Decidable ('\x1b' ∉ s.toList))

def Tinted (s t : String) : Prop :=
  ∀ rest, withoutEscapes (s.toList ++ rest) = t.toList ++ withoutEscapes rest

/-! ## Taking the sequences out -/

theorem withoutEscapes_nil : withoutEscapes [] = [] := by
  rw [withoutEscapes]
  rfl

theorem withoutEscapes_of_some {cs rest : List Char} (h : afterEscape? cs = some rest) :
    withoutEscapes cs = withoutEscapes rest := by
  rw [withoutEscapes]
  split
  · next h' => rw [h] at h'; cases h'; rfl
  · next h' => rw [h] at h'; cases h'

theorem withoutEscapes_of_none {c : Char} {cs : List Char} (h : afterEscape? (c :: cs) = none) :
    withoutEscapes (c :: cs) = c :: withoutEscapes cs := by
  rw [withoutEscapes]
  split
  · next h' => rw [h] at h'; cases h'
  · rfl

theorem withoutEscapes_cons {c : Char} (hc : c ≠ '\x1b') (cs : List Char) :
    withoutEscapes (c :: cs) = c :: withoutEscapes cs := by
  refine withoutEscapes_of_none ?_
  unfold afterEscape?
  split
  · next heq => exact absurd (List.cons.inj heq).1 hc
  · rfl

theorem withoutEscapes_append_of_not_mem {cs : List Char} (h : '\x1b' ∉ cs) (rest : List Char) :
    withoutEscapes (cs ++ rest) = cs ++ withoutEscapes rest := by
  induction cs with
  | nil => rfl
  | cons c cs ih =>
    obtain ⟨hc, hcs⟩ := not_or.1 fun hor => h (List.mem_cons.2 hor)
    rw [List.cons_append, withoutEscapes_cons (Ne.symm hc), ih hcs, List.cons_append]

/-- no sequence goes on over the end of a line -/
theorem afterEscape?_append_feed (cs rest : List Char) :
    afterEscape? (cs ++ '\n' :: rest) = (afterEscape? cs).map (· ++ '\n' :: rest) := by
  -- the digits end at the line feed, if they get there
  have htake : ∀ ds : List Char, (ds ++ '\n' :: rest).takeWhile Char.isDigit = ds.takeWhile Char.isDigit := by
    intro ds
    induction ds with
    | nil => rfl
    | cons d ds ih => simp only [List.cons_append, List.takeWhile_cons, ih]
  have hdrop : ∀ ds : List Char,
      (ds ++ '\n' :: rest).dropWhile Char.isDigit = ds.dropWhile Char.isDigit ++ '\n' :: rest := by
    intro ds
    induction ds with
    | nil => rfl
    | cons d ds ih =>
      simp only [List.cons_append, List.dropWhile_cons, ih]
      split <;> rfl
  match cs with
  | [] => rfl
  | [c] => simp [afterEscape?]
  | c :: d :: cs =>
    by_cases hfront : c = '\x1b' ∧ d = '['
    · obtain ⟨rfl, rfl⟩ := hfront
      simp only [List.cons_append, afterEscape?, htake, hdrop]
      cases cs.takeWhile Char.isDigit with
      | nil => rfl
      | cons _ _ =>
        match cs.dropWhile Char.isDigit with
        | [] => rfl
        | e :: es =>
          by_cases he : e = 'm'
          · subst he
            rfl
          · simp [he]
    · have hnone : ∀ tail, afterEscape? (c :: d :: tail) = none := by
        intro tail
        unfold afterEscape?
        split
        · next heq =>
          obtain ⟨hc, heq⟩ := List.cons.inj heq
          exact absurd ⟨hc, (List.cons.inj heq).1⟩ hfront
        · rfl
      rw [List.cons_append, List.cons_append, hnone, hnone, Option.map_none]

/-- **A text is unpainted line by line.** -/
theorem withoutEscapes_append_feed (cs rest : List Char) :
    withoutEscapes (cs ++ '\n' :: rest) = withoutEscapes cs ++ '\n' :: withoutEscapes rest := by
  fun_induction withoutEscapes cs with
  | case1 cs rest' h ih =>
    have hstep : afterEscape? (cs ++ '\n' :: rest) = some (rest' ++ '\n' :: rest) := by
      rw [afterEscape?_append_feed, h, Option.map_some]
    rw [withoutEscapes_of_some hstep, ih]
  | case2 h => exact withoutEscapes_cons (by decide) rest
  | case3 c cs h ih =>
    have hstep : afterEscape? (c :: (cs ++ '\n' :: rest)) = none := by
      rw [← List.cons_append, afterEscape?_append_feed, h, Option.map_none]
    rw [List.cons_append, withoutEscapes_of_none hstep, ih, List.cons_append]

/-! ## Tinted texts -/

theorem Tinted.unpainted_eq {s t : String} (h : Tinted s t) : unpainted s = t := by
  have hs := h []
  rw [List.append_nil, withoutEscapes_nil, List.append_nil] at hs
  rw [unpainted, hs, String.ofList_toList]

theorem Tinted.append {s s' t t' : String} (h : Tinted s t) (h' : Tinted s' t') : Tinted (s ++ s') (t ++ t') := by
  intro rest
  rw [String.toList_append, String.toList_append, List.append_assoc, List.append_assoc, h, h']

theorem IsPlain.tinted {s : String} (h : IsPlain s) : Tinted s s := withoutEscapes_append_of_not_mem h

theorem tinted_empty : Tinted "" "" := fun _ => rfl

/-- an escape sequence leaves nothing -/
theorem tinted_escapeSequence (n : ℕ) : Tinted (escapeSequence n) "" := by
  intro rest
  have hchars : (escapeSequence n).toList ++ rest = '\x1b' :: '[' :: (Nat.toDigits 10 n ++ 'm' :: rest) := by
    have hlist : (escapeSequence n).toList = ['\x1b', '['] ++ Nat.toDigits 10 n ++ ['m'] := by
      change ("\x1b[" ++ Nat.repr n ++ "m").toList = _
      rw [String.toList_append, String.toList_append, Nat.toList_repr]
      rfl
    rw [hlist]
    simp
  have hdigits : ∀ c ∈ Nat.toDigits 10 n, c.isDigit = true := fun c hc =>
    Nat.isDigit_of_mem_toDigits (by decide) (by decide) hc
  rw [hchars]
  refine withoutEscapes_of_some ?_
  simp only [afterEscape?, List.takeWhile_append_of_pos hdigits, List.dropWhile_append_of_pos hdigits]
  obtain ⟨d, ds, hds⟩ := List.exists_cons_of_ne_nil (Nat.toDigits_ne_nil (n := n) (b := 10))
  rw [hds]
  rfl

/-- **Painting adds escape sequences only.** -/
theorem tinted_paint (colour : Option Colour) (attributes : List Attribute) {s t : String} (h : Tinted s t) :
    Tinted (paint true colour attributes s) (paint false colour attributes t) := by
  have hcolour : Tinted (colour.elim "" (escapeSequence ·.code) ++ s) t := by
    rw [← String.empty_append (s := t)]
    refine Tinted.append ?_ h
    cases colour with
    | none => exact tinted_empty
    | some c => exact tinted_escapeSequence _
  have hattributes : ∀ {u : String}, Tinted u t →
      Tinted (attributes.foldl (fun t a => escapeSequence a.code ++ t) u) t := by
    induction attributes with
    | nil => exact fun hu => hu
    | cons a attributes ih =>
      intro u hu
      refine ih ?_
      rw [← String.empty_append (s := t)]
      exact (tinted_escapeSequence _).append hu
  have hreset := (hattributes hcolour).append (tinted_escapeSequence 0)
  rw [String.append_empty] at hreset
  exact hreset

/-- a line is tinted, whatever sequences it has, by what is left of it -/
theorem tinted_line (s : String) : Tinted (s ++ "\n") (unpainted s ++ "\n") := by
  intro rest
  have hpainted : (s ++ "\n").toList ++ rest = s.toList ++ '\n' :: rest := by simp
  have hleft : (unpainted s ++ "\n").toList ++ withoutEscapes rest =
      withoutEscapes s.toList ++ '\n' :: withoutEscapes rest := by simp [unpainted]
  rw [hpainted, hleft, withoutEscapes_append_feed]

/-- between tinted texts, what is left of a line can be read off -/
theorem unpainted_eq_of_line {lead lead' s t more more' : String} (hlead : Tinted lead lead') (hmore : Tinted more more')
    (h : unpainted (lead ++ s ++ "\n" ++ more) = lead' ++ t ++ "\n" ++ more') : unpainted s = t := by
  have hall := ((hlead.append (tinted_line s)).append hmore).unpainted_eq
  rw [← String.append_assoc, h, ← String.append_assoc] at hall
  have hchars := congrArg String.toList hall
  exact String.toList_inj.1 (by simpa using hchars.symm)

/-- painting makes no text shorter -/
theorem length_le_length_paint (on : Bool) (colour : Option Colour) (attributes : List Attribute) (s : String) :
    s.length ≤ (paint on colour attributes s).length := by
  have hattributes : ∀ t : String, t.length ≤ (attributes.foldl (fun t a => escapeSequence a.code ++ t) t).length := by
    induction attributes with
    | nil => exact fun _ => Nat.le_refl _
    | cons a attributes ih =>
      intro t
      refine Nat.le_trans ?_ (ih (escapeSequence a.code ++ t))
      rw [String.length_append]
      exact Nat.le_add_left _ _
  cases on with
  | false => exact Nat.le_refl _
  | true =>
    have hcoloured := hattributes (colour.elim "" (escapeSequence ·.code) ++ s)
    rw [String.length_append] at hcoloured
    change s.length ≤ (attributes.foldl _ _ ++ escapeSequence 0).length
    rw [String.length_append]
    omega

theorem tinted_emphasise {s : String} (h : IsPlain s) : Tinted (emphasise true s) (emphasise false s) :=
  tinted_paint _ _ h.tinted

theorem tinted_alarm {s : String} (h : IsPlain s) : Tinted (alarm true s) (alarm false s) :=
  tinted_paint _ _ h.tinted

end LetFront
