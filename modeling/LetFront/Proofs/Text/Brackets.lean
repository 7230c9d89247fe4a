/-
Parentheses in a text. The depth of a text is the number of parentheses that are opened in it less the number of those
that are closed. A text is balanced if its depth is zero and that of no front part is below zero; then what is closed
last in parentheses around it is what they open. A balanced text is sealed if neither a space nor a comma stands outside
its parentheses, so it ends where one of these follows it.

Main statements: `Balanced.append`, `Sealed.append` and `Balanced.enclose`, how such texts are made; `enclose_inj`, the
last parentheses of a text are found again; `Sealed.append_inj`, and so is the end of a sealed text; `commas_inj`, and the
members of a list that is written with commas.
-/
import Mathlib.Tactic

namespace LetFront.Text

/-! ## Depth -/

/-- what a character adds to the depth -/
def lift (c : Char) : ℤ := if c = '(' then 1 else if c = ')' then -1 else 0

def depth (cs : List Char) : ℤ := (cs.map lift).sum

@[simp] theorem depth_nil : depth [] = 0 := rfl

@[simp] theorem depth_cons (c : Char) (cs : List Char) : depth (c :: cs) = lift c + depth cs := by
  simp [depth]

@[simp] theorem depth_append (as bs : List Char) : depth (as ++ bs) = depth as + depth bs := by
  simp [depth]

@[simp] theorem lift_open : lift '(' = 1 := by decide

@[simp] theorem lift_close : lift ')' = -1 := by decide

theorem depth_eq_zero {cs : List Char} (h : ∀ c ∈ cs, c ≠ '(' ∧ c ≠ ')') : depth cs = 0 := by
  induction cs with
  | nil => rfl
  | cons c cs ih =>
    obtain ⟨⟨hopen, hclose⟩, hcs⟩ := List.forall_mem_cons.1 h
    rw [depth_cons, ih hcs, lift, if_neg hopen, if_neg hclose]
    rfl

/-! ## Balanced texts -/

structure Balanced (cs : List Char) : Prop where
  closed : depth cs = 0
  front : ∀ as bs, cs = as ++ bs → 0 ≤ depth as

/-- every space and every comma stands in parentheses -/
structure Sealed (cs : List Char) : Prop extends Balanced cs where
  inside : ∀ as c bs, cs = as ++ c :: bs → c = ' ' ∨ c = ',' → 0 < depth as

theorem balanced_of_plain {cs : List Char} (h : ∀ c ∈ cs, c ≠ '(' ∧ c ≠ ')') : Balanced cs where
  closed := depth_eq_zero h
  front := by
    rintro as bs rfl
    exact le_of_eq (depth_eq_zero fun c hc => h c (List.mem_append_left _ hc)).symm

theorem sealed_of_plain {cs : List Char} (h : ∀ c ∈ cs, c ∉ ['(', ')', ' ', ',']) : Sealed cs where
  toBalanced := by
    apply balanced_of_plain
    intro c hc
    have hplain := h c hc
    simp only [List.mem_cons, List.not_mem_nil, or_false, not_or] at hplain
    exact ⟨hplain.1, hplain.2.1⟩
  inside := by
    rintro as c bs rfl hcut
    have hplain := h c (List.mem_append_right _ List.mem_cons_self)
    rcases hcut with rfl | rfl
    · exact absurd hplain (by decide)
    · exact absurd hplain (by decide)

theorem Balanced.append {as bs : List Char} (ha : Balanced as) (hb : Balanced bs) : Balanced (as ++ bs) where
  closed := by rw [depth_append, ha.closed, hb.closed, add_zero]
  front := by
    intro ps qs h
    rcases List.append_eq_append_iff.1 h with ⟨ds, rfl, hbs⟩ | ⟨ds, has, -⟩
    · rw [depth_append, ha.closed, zero_add]
      exact hb.front ds qs hbs
    · exact ha.front ps ds has

theorem Sealed.append {as bs : List Char} (ha : Sealed as) (hb : Sealed bs) : Sealed (as ++ bs) where
  toBalanced := ha.toBalanced.append hb.toBalanced
  inside := by
    intro ps c qs h hcut
    rcases List.append_eq_append_iff.1 h with ⟨ds, rfl, hbs⟩ | ⟨ds, has, hcs⟩
    · rw [depth_append, ha.closed, zero_add]
      exact hb.inside ds c qs hbs hcut
    · cases ds with
      | nil =>
        have hpos := hb.inside [] c qs hcs.symm hcut
        exact absurd hpos (by decide)
      | cons d ds =>
        obtain ⟨rfl, -⟩ := List.cons.inj hcs
        exact ha.inside ps c ds has hcut

/-- a front part of a text in parentheses is empty, or it is all of it, or opens it and goes on with a front part -/
theorem enclose_eq_append {cs as bs : List Char} (h : '(' :: (cs ++ [')']) = as ++ bs) :
    as = [] ∨ bs = [] ∨ ∃ ps qs, as = '(' :: ps ∧ cs = ps ++ qs := by
  cases as with
  | nil => exact .inl rfl
  | cons a as =>
    rw [List.cons_append] at h
    obtain ⟨rfl, htail⟩ := List.cons.inj h
    rcases List.eq_nil_or_concat bs with hnil | ⟨qs, b, rfl⟩
    · exact .inr (.inl hnil)
    · rw [List.concat_eq_append, ← List.append_assoc] at htail
      exact .inr (.inr ⟨as, qs, rfl, (List.append_inj' htail rfl).1⟩)

/-- a balanced text in parentheses is sealed -/
theorem Balanced.enclose {cs : List Char} (h : Balanced cs) : Sealed ('(' :: (cs ++ [')'])) where
  closed := by
    simp [h.closed]
  front := by
    intro as bs heq
    rcases enclose_eq_append heq with rfl | rfl | ⟨ps, qs, rfl, hcs⟩
    · exact le_of_eq depth_nil.symm
    · rw [List.append_nil] at heq
      simp [← heq, h.closed]
    · have hps := h.front ps qs hcs
      rw [depth_cons, lift_open]
      omega
  inside := by
    intro as c bs heq hcut
    rcases enclose_eq_append heq with rfl | hnil | ⟨ps, qs, rfl, hcs⟩
    · obtain ⟨rfl, -⟩ := List.cons.inj heq
      exact absurd hcut (by decide)
    · cases hnil
    · have hps := h.front ps qs hcs
      rw [depth_cons, lift_open]
      omega

/-! ## What is found again -/

/-- of two texts that end in parentheses, the second does not open them later than the first -/
theorem enclose_front_eq {as bs bs' ds : List Char} (h : Balanced bs) (h' : Balanced bs')
    (heq : as ++ '(' :: (bs ++ [')']) = (as ++ ds) ++ '(' :: (bs' ++ [')'])) : ds = [] := by
  rw [List.append_assoc] at heq
  have htail := List.append_cancel_left heq
  cases ds with
  | nil => rfl
  | cons d ds =>
    obtain ⟨rfl, hbs⟩ := List.cons.inj htail
    have hlast : bs ++ [')'] = (ds ++ '(' :: bs') ++ [')'] := by
      rw [hbs]
      simp
    obtain ⟨rfl, -⟩ := List.append_inj' hlast rfl
    -- what stands in front of the second parenthesis would close one more than it opens
    have hfront := h.front ds ('(' :: bs') rfl
    have hclosed := h.closed
    rw [depth_append, depth_cons, lift_open, h'.closed] at hclosed
    omega

/-- **The last parentheses are found again.** -/
theorem enclose_inj {as as' bs bs' : List Char} (h : Balanced bs) (h' : Balanced bs')
    (heq : as ++ '(' :: (bs ++ [')']) = as' ++ '(' :: (bs' ++ [')'])) : as = as' ∧ bs = bs' := by
  have hfront : as = as' := by
    rcases List.append_eq_append_iff.1 heq with ⟨ds, rfl, -⟩ | ⟨ds, rfl, -⟩
    · rw [enclose_front_eq h h' heq, List.append_nil]
    · rw [enclose_front_eq h' h heq.symm, List.append_nil]
  subst hfront
  have htail := List.append_cancel_left heq
  exact ⟨rfl, (List.append_inj' (List.cons.inj htail).2 rfl).1⟩

/-- a sealed text is not longer than another one that a space or a comma follows -/
theorem Sealed.rest_eq_nil {as bs ds es : List Char} {c : Char} (h : Balanced as) (h' : Sealed (as ++ ds))
    (hcut : c = ' ' ∨ c = ',') (heq : as ++ c :: bs = (as ++ ds) ++ es) : ds = [] := by
  rw [List.append_assoc] at heq
  have htail := List.append_cancel_left heq
  cases ds with
  | nil => rfl
  | cons d ds =>
    obtain ⟨rfl, -⟩ := List.cons.inj htail
    have hpos := h'.inside as c ds rfl hcut
    rw [h.closed] at hpos
    exact absurd hpos (lt_irrefl 0)

/-- **A sealed text ends where a space or a comma follows it.** -/
theorem Sealed.append_inj {as as' bs bs' : List Char} {c c' : Char} (h : Sealed as) (h' : Sealed as')
    (hcut : c = ' ' ∨ c = ',') (hcut' : c' = ' ' ∨ c' = ',') (heq : as ++ c :: bs = as' ++ c' :: bs') :
    as = as' ∧ bs = bs' := by
  have hfront : as = as' := by
    rcases List.append_eq_append_iff.1 heq with ⟨ds, rfl, -⟩ | ⟨ds, rfl, -⟩
    · rw [Sealed.rest_eq_nil h.toBalanced h' hcut heq, List.append_nil]
    · rw [Sealed.rest_eq_nil h'.toBalanced h hcut' heq.symm, List.append_nil]
  subst hfront
  exact ⟨rfl, (List.cons.inj (List.append_cancel_left heq)).2⟩

/-! ## Lists -/

/-- what texts keep that are put one behind the other, they keep when they are joined -/
theorem intercalate_of_append {P : List Char → Prop} (hnil : P []) (happend : ∀ as bs, P as → P bs → P (as ++ bs))
    {sep : List Char} {xs : List (List Char)} (hsep : P sep) (hxs : ∀ x ∈ xs, P x) : P (sep.intercalate xs) := by
  induction xs with
  | nil => exact hnil
  | cons x xs ih =>
    obtain ⟨hx, hrest⟩ := List.forall_mem_cons.1 hxs
    cases xs with
    | nil => rwa [List.intercalate_singleton]
    | cons y xs =>
      rw [List.intercalate_cons_cons]
      exact happend _ _ (happend _ _ hx hsep) (ih hrest)

/-- a list that is written with commas -/
def commas (xs : List (List Char)) : List Char := [',', ' '].intercalate xs

theorem balanced_commas {xs : List (List Char)} (h : ∀ x ∈ xs, Balanced x) : Balanced (commas xs) := by
  have hnil : Balanced [] := balanced_of_plain (List.forall_mem_nil _)
  have hcomma : Balanced [','] := balanced_of_plain (List.forall_mem_singleton.2 (by decide))
  have hspace : Balanced [' '] := balanced_of_plain (List.forall_mem_singleton.2 (by decide))
  exact intercalate_of_append hnil (fun _ _ ha hb => ha.append hb) (hcomma.append hspace) h

theorem commas_singleton (x : List Char) : commas [x] = x := List.intercalate_singleton

theorem commas_cons_cons (x y : List Char) (xs : List (List Char)) :
    commas (x :: y :: xs) = x ++ ',' :: ' ' :: commas (y :: xs) := by
  rw [commas, List.intercalate_cons_cons, List.append_assoc]
  rfl

theorem commas_ne_nil {x : List Char} (xs : List (List Char)) (h : x ≠ []) : commas (x :: xs) ≠ [] := by
  cases xs with
  | nil => rwa [commas_singleton]
  | cons y xs => simp [commas_cons_cons]

/-- a sealed text is no list of several members -/
theorem Sealed.ne_commas {x y z : List Char} {zs : List (List Char)} (h : Sealed x) (h' : Sealed y) :
    x ≠ commas (y :: z :: zs) := by
  intro heq
  rw [commas_cons_cons] at heq
  have hpos := h.inside y ',' _ heq (.inr rfl)
  rw [h'.closed] at hpos
  exact absurd hpos (lt_irrefl 0)

/-- **The members of a list are found again.** -/
theorem commas_inj {xs ys : List (List Char)} (hxs : ∀ x ∈ xs, Sealed x ∧ x ≠ []) (hys : ∀ y ∈ ys, Sealed y ∧ y ≠ [])
    (heq : commas xs = commas ys) : xs = ys := by
  induction xs generalizing ys with
  | nil =>
    cases ys with
    | nil => rfl
    | cons y ys =>
      obtain ⟨⟨-, hy⟩, -⟩ := List.forall_mem_cons.1 hys
      exact absurd heq.symm (commas_ne_nil ys hy)
  | cons x xs ih =>
    obtain ⟨⟨hx, hne⟩, hxs'⟩ := List.forall_mem_cons.1 hxs
    cases ys with
    | nil => exact absurd heq (commas_ne_nil xs hne)
    | cons y ys =>
      obtain ⟨⟨hy, -⟩, hys'⟩ := List.forall_mem_cons.1 hys
      cases xs with
      | nil =>
        rw [commas_singleton] at heq
        cases ys with
        | nil => rw [heq, commas_singleton]
        | cons w ys => exact absurd heq (hx.ne_commas hy)
      | cons z xs =>
        cases ys with
        | nil =>
          rw [commas_singleton] at heq
          exact absurd heq.symm (hy.ne_commas hx)
        | cons w ys =>
          rw [commas_cons_cons, commas_cons_cons] at heq
          obtain ⟨rfl, hrest⟩ := hx.append_inj hy (.inr rfl) (.inr rfl) heq
          rw [ih hxs' hys' (List.cons.inj hrest).2]

end LetFront.Text
