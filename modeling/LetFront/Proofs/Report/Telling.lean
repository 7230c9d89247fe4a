/-
What an action tells. Most actions neither halt nor look at what was said before: they only add a text to what is printed
and errors to those that are counted, and whether the reporter paints decides the rest.

`Tells on action a text n`: on every reporter that paints as `on` says, the action gives back `a`, and adds `text` and
`n` errors.

Main statements: `Tells.bind` and its neighbours, what is made of such actions tells what its parts tell, one after the
other; `tells_report`, an error of a program is reported and never halts; `tells_parse`, parsing a source tells the
reports of its errors, in order.
-/
import LetFront.Proofs.Report.SourceLine
import LetFront.Session

namespace LetFront

/-- the reporter after it has said a text and counted errors -/
def Reporter.told (r : Reporter) (text : String) (n : ℕ) : Reporter :=
  { r with errors := r.errors + n, printed := r.printed ++ text }

theorem Reporter.told_nothing (r : Reporter) : r.told "" 0 = r := by
  simp [Reporter.told]

theorem Reporter.told_told (r : Reporter) (text text' : String) (n n' : ℕ) :
    (r.told text n).told text' n' = r.told (text ++ text') (n + n') := by
  simp [Reporter.told, String.append_assoc, Nat.add_assoc]

def Tells {α : Type} (on : Bool) (action : Reporting α) (a : α) (text : String) (n : ℕ) : Prop :=
  ∀ ⦃r : Reporter⦄, r.painted = on → action.runOn r = (.ok a, r.told text n)

variable {α β : Type} {on : Bool} {action : Reporting α} {a : α} {text text' : String} {n n' : ℕ}

theorem Tells.cast (h : Tells on action a text n) (htext : text = text') (hn : n = n') : Tells on action a text' n' := by
  subst htext hn
  exact h

/-- what an action tells is what a new reporter has printed after it -/
theorem Tells.printed_eq (h : Tells on action a text n) (isFatal : Bool) :
    (action.runOn (.new isFatal on)).2.printed = text := by
  rw [h rfl]
  exact String.empty_append

/-! ## Actions made of actions -/

theorem tells_pure (a : α) : Tells on (pure a) a "" 0 := by
  intro r _
  rw [Reporting.runOn_pure, r.told_nothing]

/-- **One after the other.** What the second action tells stands behind what the first one tells. -/
theorem Tells.bind {f : α → Reporting β} {b : β} (h : Tells on action a text n) (hf : Tells on (f a) b text' n') :
    Tells on (action >>= f) b (text ++ text') (n + n') := by
  intro r hr
  have hafter : (r.told text n).painted = on := hr
  rw [Reporting.runOn_bind, h hr]
  simp only [hf hafter, r.told_told]

/-- an action that counts no errors may go in front -/
theorem Tells.before {f : α → Reporting β} {b : β} (h : Tells on action a text 0) (hf : Tells on (f a) b text' n) :
    Tells on (action >>= f) b (text ++ text') n := by
  rw [← Nat.zero_add n]
  exact h.bind hf

/-- an action may ask whether to paint -/
theorem tells_get_bind {f : Reporter → Reporting β} {b : β} (h : ∀ r, r.painted = on → Tells on (f r) b text n) :
    Tells on (get >>= f) b text n := by
  intro r hr
  rw [Reporting.runOn_bind, Reporting.runOn_get]
  exact h r hr hr

theorem tells_print (text : String) : Tells on (Reporting.print text) () (text ++ "\n") 0 := fun _ _ => rfl

/-- an error is counted before anything else is done -/
theorem Tells.counted {f : Unit → Reporting β} {b : β} (h : Tells on (f ()) b text 0) :
    Tells on (Reporting.countError >>= f) b text 1 := by
  intro r hr
  have hafter : ({ r with errors := r.errors + 1 } : Reporter).painted = on := hr
  rw [Reporting.runOn_bind, Reporting.runOn_countError]
  exact h hafter

theorem tells_forM {xs : List α} {f : α → Reporting Unit} {texts : α → String} {counts : α → ℕ}
    (h : ∀ x ∈ xs, Tells on (f x) () (texts x) (counts x)) :
    Tells on (xs.forM f) () (String.join (xs.map texts)) (xs.map counts).sum := by
  induction xs with
  | nil => exact tells_pure ()
  | cons x xs ih =>
    obtain ⟨hx, hxs⟩ := List.forall_mem_cons.1 h
    rw [List.map_cons, List.map_cons, String.join_cons, List.sum_cons]
    exact hx.bind (ih hxs)

theorem Reporting.runOn_guarded_ok {r r' : Reporter} (hrun : action.runOn r = (.ok a, r')) :
    (guarded action).runOn r = (.ok (some a), r') := by
  have hsome : (some <$> action).runOn r = (.ok (some a), r') := by
    rw [← bind_pure_comp, runOn_bind, hrun]
    rfl
  rw [guarded_eq, runOn_tryCatch, hsome]

/-- the care of the reporter does not show where nothing ends an action early -/
theorem Tells.guarded (h : Tells on action a text n) : Tells on (Reporting.guarded action) (some a) text n :=
  fun _ hr => Reporting.runOn_guarded_ok (h hr)

/-! ## Reports -/

/-- the report of an error in the source that was read from `path`, as it is printed -/
def reportText (on : Bool) (path source : String) (e : ParseError) : String :=
  ((Reporting.report path source e).runOn (.new false on)).2.printed

/-- pointing at an error of a program does not fail -/
theorem exists_pointAt_eq_ok {source : String} {e : ParseError} {place : Location}
    (he : e ∈ (Program.ofString source).errors) (hplace : e.location = some place) (on : Bool) :
    ∃ shown, pointAt on source place = .ok shown := by
  obtain ⟨t, ht, rfl⟩ := mem_tokens_of_location he hplace
  obtain ⟨i, column, -, hlocation, hcolumn, -⟩ := exists_line_of_mem_tokens ht
  rw [hlocation]
  exact ⟨_, pointAt_eq_ok on hcolumn i⟩

/-- an error is counted, and then said in the way that the reporter paints -/
theorem exists_tells_counted {f : Unit → Reporter → Reporting β} {b : β}
    (h : ∃ text, ∀ r : Reporter, r.painted = on → Tells on (f () r) b text 0) :
    ∃ text, Tells on (Reporting.countError >>= fun u => get >>= f u) b text 1 := by
  obtain ⟨text, htext⟩ := h
  exact ⟨text, .counted (tells_get_bind htext)⟩

/-- a report of an error that can be pointed at, or need not be, only tells -/
theorem exists_tells_report {source : String} {e : ParseError}
    (h : ∀ place, e.location = some place → ∃ shown, pointAt on source place = .ok shown) (path : String) :
    ∃ text, Tells on (Reporting.report path source e) () text 1 := by
  unfold Reporting.report
  apply exists_tells_counted
  cases hplace : e.location with
  | none =>
    apply Exists.intro
    intro r hr
    simp only [hr]
    exact tells_print _
  | some place =>
    obtain ⟨shown, hshown⟩ := h place hplace
    cases shown with
    | none =>
      apply Exists.intro
      intro r hr
      simp only [hr, hshown]
      exact (tells_print _).before ((tells_pure none).before (tells_pure ()))
    | some line =>
      apply Exists.intro
      intro r hr
      simp only [hr, hshown]
      exact (tells_print _).before ((tells_pure (some line)).before (tells_print line))

/-- **A report tells one error.** An error of a program is reported, whatever was reported before. -/
theorem tells_report {source : String} {e : ParseError} (he : e ∈ (Program.ofString source).errors) (path : String) :
    Tells on (Reporting.report path source e) () (reportText on path source e) 1 := by
  obtain ⟨text, htext⟩ := exists_tells_report (fun _ hplace => exists_pointAt_eq_ok he hplace on) path
  rwa [reportText, htext.printed_eq]

/-- **A source is parsed and its errors reported**, one after the other. -/
theorem tells_parse (on : Bool) (s : Session) (source : String) :
    Tells on (s.parse (some source)) (Program.ofString source)
      (String.join ((Program.ofString source).errors.map (reportText on s.path source)))
      (Program.ofString source).errors.length := by
  have hreports : Tells on ((Program.ofString source).errors.forM (Reporting.report s.path source)) ()
      (String.join ((Program.ofString source).errors.map (reportText on s.path source)))
      ((Program.ofString source).errors.map fun _ => 1).sum := tells_forM fun e he => tells_report he s.path
  have hcount : ((Program.ofString source).errors.map fun _ => 1).sum = (Program.ofString source).errors.length := by
    simp
  rw [hcount] at hreports
  exact (hreports.bind (f := fun _ => pure (Program.ofString source)) (tells_pure _)).cast String.append_empty rfl

end LetFront
