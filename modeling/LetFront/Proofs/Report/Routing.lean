/-
Where problems go. A reporter tells a notice by its message and then by its subject, if it points there, and exits if errors
are fatal. Under its care a notice, the break key and a failure are told so, each as a notice; a notice and the break key
end there, a failure goes through if there was no exit, and an exit goes through untold. Each problem is counted once, and
nothing that is raised or reported changes whether errors are fatal or whether to paint.

Telling a notice may fail, though. Its template is filled anew with the snippets painted, and they may not fit into it any
more; and its subject cannot be pointed at that far out. Nothing fails of the first kind where nothing is painted or
where the template is flat: none of its holes asks for an attribute, or has a hole in its specification. The notices of the
reporter itself never fail.

`EndsAs isFatal on action o text n`: on every reporter that is fatal and paints as is said, the action ends as `o`, and
adds `text` and `n` errors. `Routed isFatal painted step o said`: how a step has to end, and what it has to print.

Main statements: `Reporting.runOn_announce`, a notice is told or cannot be; `exists_dealt`, what comes of whatever ends an
action early; `exists_routed`, a step; `exists_run`, a run of steps; `errors_are_routed`, all of it together;
`announce_fails_of_made`, two notices that are made and cannot be told.
-/
import LetFront.Proofs.Report.Telling
import LetFront.Proofs.Report.Wording

namespace LetFront

/-! ## Telling -/

/-- what stands in front of the message of a notice -/
def Notice.front (on : Bool) (n : Notice) : String :=
  (if n.isInternal then alarm on "[internal] " else "") ++ alarm on "error: "

/-- a notice as it is told, with nothing but its message -/
def announcement (on : Bool) (n : Notice) : Except Failure String :=
  (n.front on ++ · ++ "\n") <$> n.wording (emphasise on)

namespace Notice

/-- a notice that does not point at its subject -/
def IsBare (n : Notice) : Prop := n.isInternal = true ∨ n.subject = "" ∨ n.pointed = false

instance (n : Notice) : Decidable n.IsBare := inferInstanceAs (Decidable (_ ∨ _ ∨ _))

/-- what is shown of the subject of a notice -/
def shown (on : Bool) (n : Notice) : Except Failure String :=
  if n.IsBare then .ok ""
  else (· ++ "\n") <$> diagnose on n.subject.length n.subject.toList n.start n.stop

theorem shown_of_isBare {n : Notice} {on : Bool} (h : n.IsBare) : n.shown on = .ok "" := if_pos h

/-- whether a notice can be pointed at has nothing to do with colours -/
theorem exists_shown_iff (n : Notice) (on : Bool) :
    (∃ text, n.shown on = .ok text) ↔
      n.IsBare ∨ isCount n.subject.length n.start = true ∧
        isCount n.subject.length (max n.stop (n.start + 1) - n.start - 1) = true := by
  unfold shown diagnose
  split
  · next hbare => exact ⟨fun _ => .inl hbare, fun _ => ⟨_, rfl⟩⟩
  · next hbare =>
    rw [or_iff_right hbare, ← Bool.and_eq_true]
    split
    · next hcounts => exact ⟨fun _ => hcounts, fun _ => ⟨_, rfl⟩⟩
    · next hcounts => exact ⟨fun ⟨_, h⟩ => (nomatch h), fun h => absurd h hcounts⟩

theorem exists_announcement {n : Notice} {on : Bool} (h : ∃ message, n.wording (emphasise on) = .ok message) :
    ∃ text, announcement on n = .ok text := by
  obtain ⟨message, hmessage⟩ := h
  rw [announcement, hmessage]
  exact ⟨_, rfl⟩

/-- **Where nothing is painted, a notice is told by its message.** -/
theorem announcement_unpainted (n : Notice) :
    announcement false n = .ok ((if n.isInternal then "[internal] " else "") ++ "error: " ++ n.text ++ "\n") := by
  rw [announcement, n.wording_unpainted]
  rfl

/-- **A failure is told by its label and its text**, as they are. -/
theorem announcement_unknown (f : Failure) :
    announcement false (unknown f) =
      .ok ("[internal] error: unknown error: '" ++ f.label ++ ": " ++ f.text ++ "'\n") := by
  have hfront : "[internal] error: unknown error: '" = "[internal] " ++ "error: " ++ "unknown error: '" := by decide +kernel
  have hback : "'\n" = "'" ++ "\n" := by decide
  refine (announcement_unpainted _).trans (congrArg Except.ok ?_)
  calc "[internal] " ++ "error: " ++ ("unknown error: '" ++ (f.label ++ ": " ++ f.text) ++ "'") ++ "\n"
      = ("[internal] " ++ "error: " ++ "unknown error: '") ++ f.label ++ ": " ++ f.text ++ ("'" ++ "\n") := by
        simp only [String.append_assoc]
    _ = _ := congrArg₂ (· ++ f.label ++ ": " ++ f.text ++ ·) hfront.symm hback.symm

theorem exists_announcement_interrupted (on : Bool) : ∃ text, announcement on interrupted = .ok text :=
  exists_announcement ⟨_, wording_plain _ _⟩

theorem exists_announcement_unknown (on : Bool) (f : Failure) : ∃ text, announcement on (unknown f) = .ok text :=
  exists_announcement ⟨_, wording_about _ _ _ _ _⟩

/-- painting makes a snippet longer, and so a flat template takes it -/
theorem exists_announcement_of_isFlat {n : Notice} (h : Text.Template.IsFlat n.template) (on : Bool) :
    ∃ text, announcement on n = .ok text := by
  have hlonger : ∀ s ∈ n.snippets, s.length ≤ (emphasise on s).length := fun s _ =>
    length_le_length_paint on none [.bold] s
  obtain ⟨message, hmessage⟩ := Text.Template.exists_format_of_isFlat h hlonger n.text_eq
  refine exists_announcement ⟨message, ?_⟩
  rw [wording, hmessage]
  rfl

end Notice

/-- a fatal reporter exits with one, and any other goes on -/
def exitOr {α : Type} (isFatal : Bool) (o : Except Halt α) : Except Halt α :=
  if isFatal then .error (.exit (.status 1)) else o

variable {α β : Type} {isFatal on : Bool} {action : Reporting α} {o : Except Halt α} {a : α} {text text' : String}
  {n n' : ℕ} {halt : Halt}

namespace Reporting

variable {r : Reporter}

/-- what a notice ends in -/
theorem runOn_exitOr (r : Reporter) :
    (do if (← get).isFatal then throw (.exit (.status 1)) : Reporting Unit).runOn r = (exitOr r.isFatal (.ok ()), r) := by
  rw [runOn_bind, runOn_get, exitOr]
  dsimp only
  split <;> rfl

/-- **A notice is told, and a fatal reporter exits then**, if the notice can be told. -/
theorem runOn_announce (n : Notice) (r : Reporter) :
    (announce n).runOn r =
      match announcement r.painted n with
      | .error f => (.error (.failure f), r.told "" 1)
      | .ok text =>
        match n.shown r.painted with
        | .error f => (.error (.failure f), r.told text 1)
        | .ok shown => (exitOr r.isFatal (.ok ()), r.told (text ++ shown) 1) := by
  have hpointed : (!n.isInternal && n.subject ≠ "" && n.pointed) = true ↔ ¬ n.IsBare := by
    simp [Notice.IsBare, and_assoc]
  unfold announce message announcement Notice.shown
  simp only [runOn_bind, runOn_countError, runOn_get, hpointed]
  cases n.wording (emphasise r.painted) with
  | error f =>
    simp only [runOn_ofExcept_error, Reporter.told, String.append_empty]
    rfl
  | ok message =>
    simp only [runOn_ofExcept_ok, runOn_print, Functor.map, Except.map]
    by_cases hbare : n.IsBare
    · simp only [hbare, not_true_eq_false, ↓reduceIte, String.append_empty]
      exact runOn_exitOr _
    · simp only [hbare, not_false_eq_true, ↓reduceIte]
      rw [runOn_bind]
      cases diagnose r.painted n.subject.length n.subject.toList n.start n.stop with
      | error f => rfl
      | ok shown =>
        rw [runOn_ofExcept_ok]
        dsimp only
        rw [runOn_bind, runOn_print]
        dsimp only
        rw [runOn_exitOr]
        simp only [Reporter.told, Notice.front, String.append_assoc]

/-- **Announcing a notice ends as it should exactly if the notice can be told.** -/
theorem runOn_announce_eq_exitOr_iff (n : Notice) (r : Reporter) :
    ((announce n).runOn r).1 = exitOr r.isFatal (.ok ()) ↔
      (∃ text, announcement r.painted n = .ok text) ∧ ∃ text, n.shown r.painted = .ok text := by
  have hfailure : ∀ f : Failure, Except.error (.failure f) ≠ exitOr r.isFatal (.ok ()) := by
    intro f h
    unfold exitOr at h
    split at h <;> cases h
  rw [runOn_announce]
  cases announcement r.painted n with
  | error f => simp [hfailure]
  | ok text =>
    cases n.shown r.painted with
    | error f => simp [hfailure]
    | ok shown => simp

theorem runOn_guarded_of_error {r' : Reporter} (hrun : action.runOn r = (.error halt, r')) :
    (guarded action).runOn r = (do absorb halt; return none : Reporting (Option α)).runOn r' := by
  have hsome : (some <$> action).runOn r = (.error halt, r') := by
    rw [← bind_pure_comp, runOn_bind, hrun]
  rw [guarded_eq, runOn_tryCatch, hsome]

end Reporting

/-! ## Ends -/

def EndsAs (isFatal on : Bool) (action : Reporting α) (o : Except Halt α) (text : String) (n : ℕ) : Prop :=
  ∀ ⦃r : Reporter⦄, r.isFatal = isFatal → r.painted = on → action.runOn r = (o, r.told text n)

theorem EndsAs.cast (h : EndsAs isFatal on action o text n) (htext : text = text') : EndsAs isFatal on action o text' n :=
  htext ▸ h

theorem Tells.endsAs (h : Tells on action a text n) : EndsAs isFatal on action (.ok a) text n := fun _ _ hr => h hr

theorem endsAs_throw (halt : Halt) : EndsAs isFatal on (throw halt : Reporting α) (.error halt) "" 0 := by
  intro r _ _
  rw [r.told_nothing]
  rfl

theorem endsAs_announce {notice : Notice} {shown : String} (h : announcement on notice = .ok text)
    (hshown : notice.shown on = .ok shown) :
    EndsAs isFatal on (Reporting.announce notice) (exitOr isFatal (.ok ())) (text ++ shown) 1 := by
  rintro r rfl rfl
  rw [Reporting.runOn_announce, h]
  dsimp only
  rw [hshown]

theorem endsAs_announce_unworded {notice : Notice} {f : Failure} (h : announcement on notice = .error f) :
    EndsAs isFatal on (Reporting.announce notice) (.error (.failure f)) "" 1 := by
  rintro r rfl rfl
  rw [Reporting.runOn_announce, h]

theorem endsAs_announce_unpointed {notice : Notice} {f : Failure} (h : announcement on notice = .ok text)
    (hshown : notice.shown on = .error f) :
    EndsAs isFatal on (Reporting.announce notice) (.error (.failure f)) text 1 := by
  rintro r rfl rfl
  rw [Reporting.runOn_announce, h]
  dsimp only
  rw [hshown]

/-- a notice of which nothing is shown but its message -/
theorem endsAs_announce_bare {notice : Notice} (h : announcement on notice = .ok text) (hbare : notice.IsBare) :
    EndsAs isFatal on (Reporting.announce notice) (exitOr isFatal (.ok ())) text 1 :=
  (endsAs_announce h (Notice.shown_of_isBare hbare)).cast String.append_empty

/-- what follows an action that ended in some way -/
theorem EndsAs.bind {f : α → Reporting β} {o' : Except Halt β} (h : EndsAs isFatal on action (.ok a) text n)
    (hf : EndsAs isFatal on (f a) o' text' n') : EndsAs isFatal on (action >>= f) o' (text ++ text') (n + n') := by
  intro r hfatal hr
  have hafter := hf (r := r.told text n) hfatal hr
  rw [r.told_told] at hafter
  rw [Reporting.runOn_bind, h hfatal hr]
  exact hafter

/-- the first action does not show -/
theorem EndsAs.bind_silent {f : α → Reporting β} {o' : Except Halt β} (h : EndsAs isFatal on action (.ok a) "" 0)
    (hf : EndsAs isFatal on (f a) o' text n) : EndsAs isFatal on (action >>= f) o' text n := by
  have hboth := h.bind hf
  rwa [String.empty_append, Nat.zero_add] at hboth

theorem EndsAs.halted {f : α → Reporting β} (h : EndsAs isFatal on action (.error halt) text n) :
    EndsAs isFatal on (action >>= f) (.error halt) text n := by
  intro r hfatal hr
  rw [Reporting.runOn_bind, h hfatal hr]

/-- a value in place of that of an action -/
theorem EndsAs.giving (h : EndsAs isFatal on action o text n) (b : β) :
    EndsAs isFatal on (do let _ ← action; return b) (o.map fun _ => b) text n := by
  intro r hfatal hr
  rw [Reporting.runOn_bind, h hfatal hr]
  cases o <;> rfl

/-- **What the care of the reporter does** with an action that ended early: it deals with that, and there is no value. -/
theorem EndsAs.guarded_error {o : Except Halt Unit} (h : EndsAs isFatal on action (.error halt) text n)
    (habsorb : EndsAs isFatal on (Reporting.absorb halt) o text' n') :
    EndsAs isFatal on (Reporting.guarded action) (o.map fun _ => none) (text ++ text') (n + n') := by
  intro r hfatal hr
  have hafter := (habsorb.giving (none : Option α)) (r := r.told text n) hfatal hr
  rw [r.told_told] at hafter
  rw [Reporting.runOn_guarded_of_error (h hfatal hr)]
  exact hafter

theorem tells_write (text : String) : Tells on (Reporting.write text) () text 0 := fun _ _ => rfl

/-! ## What is raised -/

/-- what is raised ends an action early -/
inductive Raises : Raise → Halt → Prop
  | notice {source : NoticeSource} {n : Notice} (h : source.notice = .ok n) : Raises (.notice source) (.notice n)
  | exit (code : ExitCode) : Raises (.exit code) (.exit code)
  | interrupt : Raises .interrupt .interrupt
  | failure (f : Failure) : Raises (.failure f) (.failure f)

/-- everything but an exit is counted -/
def Raise.counted : Raise → ℕ
  | exit _ => 0
  | _ => 1

/-- a step that may fail -/
theorem endsAs_ofExcept (x : Except Failure α) :
    EndsAs isFatal on (Reporting.ofExcept x) (x.mapError .failure) "" 0 := by
  cases x with
  | ok a => exact (tells_pure a).endsAs
  | error f => exact endsAs_throw (.failure f)

theorem endsAs_notice {source : NoticeSource} {notice : Notice} (h : source.notice = .ok notice) :
    EndsAs isFatal on (Reporting.ofExcept source.notice) (.ok notice) "" 0 := by
  rw [h]
  exact endsAs_ofExcept (.ok notice)

theorem Raises.endsAs {raise : Raise} (h : Raises raise halt) : EndsAs isFatal on raise.action (.error halt) "" 0 := by
  cases h with
  | notice h => exact (endsAs_notice h).bind_silent (f := fun n => throw (.notice n)) (endsAs_throw _)
  | exit code => exact endsAs_throw _
  | interrupt => exact endsAs_throw _
  | failure f => exact endsAs_throw _

/-- how a reporter deals with what ended an action early: how that ends, and what is printed -/
inductive Dealt (isFatal painted : Bool) : Halt → Except Halt Unit → String → Prop
  | exit (code : ExitCode) : Dealt isFatal painted (.exit code) (.error (.exit code)) ""
  | notice {n : Notice} {text shown : String} (h : announcement painted n = .ok text)
      (hshown : n.shown painted = .ok shown) : Dealt isFatal painted (.notice n) (exitOr isFatal (.ok ())) (text ++ shown)
  /-- the message takes no painted snippets -/
  | unworded {n : Notice} {f : Failure} (h : announcement painted n = .error f) :
      Dealt isFatal painted (.notice n) (.error (.failure f)) ""
  /-- the subject cannot be pointed at -/
  | unpointed {n : Notice} {text : String} {f : Failure} (h : announcement painted n = .ok text)
      (hshown : n.shown painted = .error f) : Dealt isFatal painted (.notice n) (.error (.failure f)) text
  | interrupt {text : String} (h : announcement painted .interrupted = .ok text) :
      Dealt isFatal painted .interrupt (exitOr isFatal (.ok ())) text
  | failure {f : Failure} {text : String} (h : announcement painted (.unknown f) = .ok text) :
      Dealt isFatal painted (.failure f) (exitOr isFatal (.error (.failure f))) text

theorem exists_dealt_notice (notice : Notice) (isFatal on : Bool) :
    ∃ o said, EndsAs isFatal on (Reporting.announce notice) o said 1 ∧ Dealt isFatal on (.notice notice) o said := by
  cases hannouncement : announcement on notice with
  | error f => exact ⟨_, _, endsAs_announce_unworded hannouncement, .unworded hannouncement⟩
  | ok text =>
    cases hshown : notice.shown on with
    | error f => exact ⟨_, _, endsAs_announce_unpointed hannouncement hshown, .unpointed hannouncement hshown⟩
    | ok shown => exact ⟨_, _, endsAs_announce hannouncement hshown, .notice hannouncement hshown⟩

/-- **What comes of whatever ends an action early.** -/
theorem exists_dealt {raise : Raise} (h : Raises raise halt) (isFatal on : Bool) :
    ∃ o said, EndsAs isFatal on (Reporting.absorb halt) o said raise.counted ∧ Dealt isFatal on halt o said := by
  cases h with
  | exit code => exact ⟨_, _, endsAs_throw _, .exit code⟩
  | @notice _ n => exact exists_dealt_notice n isFatal on
  | interrupt =>
    obtain ⟨text, htext⟩ := Notice.exists_announcement_interrupted on
    exact ⟨_, _, endsAs_announce_bare htext (.inr (.inl rfl)), .interrupt htext⟩
  | failure f =>
    obtain ⟨text, htext⟩ := Notice.exists_announcement_unknown on f
    have htold : EndsAs isFatal on (Reporting.announce (.unknown f)) (exitOr isFatal (.ok ())) text 1 :=
      endsAs_announce_bare htext (.inl rfl)
    refine ⟨_, text, ?_, .failure htext⟩
    cases isFatal with
    | true => exact htold.halted
    | false => exact (htold.bind (f := fun _ => Reporting.fail f) (endsAs_throw _)).cast String.append_empty

/-! ## Steps -/

/-- what the notices of a step are made from -/
def Step.sources : Step → List NoticeSource
  | message n => [n]
  | announce n => [n]
  | guarded _ (some (.notice n)) => [n]
  | _ => []

/-- the errors that a step counts -/
def Step.counted : Step → ℕ
  | report _ _ _ => 1
  | announce _ => 1
  | guarded _ (some raise) => raise.counted
  | _ => 0

inductive Routed (isFatal painted : Bool) : Step → Except Halt (Option String) → String → Prop
  | paint (colour : Option Colour) (attributes : List Attribute) (text : String) :
      Routed isFatal painted (.paint colour attributes text) (.ok (some (LetFront.paint painted colour attributes text))) ""
  /-- the message is given back, or fails to be worded -/
  | message {source : NoticeSource} {n : Notice} (h : source.notice = .ok n) :
      Routed isFatal painted (.message source) ((some <$> n.wording (emphasise painted)).mapError .failure) ""
  | diagnose (line : String) (start stop : ℤ) :
      Routed isFatal painted (.diagnose line start stop)
        ((some <$> LetFront.diagnose painted line.length line.toList start stop).mapError .failure) ""
  | report (path : String) {source : String} {e : ParseError}
      (h : ∀ place, e.location = some place → ∃ shown, pointAt painted source place = .ok shown) (said : String) :
      Routed isFatal painted (.report path source e) (.ok none) said
  /-- the error cannot be pointed at -/
  | unpointed (path : String) {source : String} {e : ParseError} {place : Location} {f : Failure}
      (hplace : e.location = some place) (hfault : pointAt painted source place = .error f) (said : String) :
      Routed isFatal painted (.report path source e) (.error (.failure f)) said
  | announce {source : NoticeSource} {n : Notice} {o : Except Halt Unit} {said : String} (h : source.notice = .ok n)
      (hdealt : Dealt isFatal painted (.notice n) o said) :
      Routed isFatal painted (.announce source) (o.map fun _ => none) said
  /-- nothing is raised under the care of the reporter -/
  | finished (text : String) : Routed isFatal painted (.guarded text none) (.ok none) text
  | guarded (text : String) {raise : Raise} {halt : Halt} {o : Except Halt Unit} {said : String} (h : Raises raise halt)
      (hdealt : Dealt isFatal painted halt o said) :
      Routed isFatal painted (.guarded text (some raise)) (o.map fun _ => none) (text ++ said)

theorem exists_raises {raise : Raise} (h : ∀ n, raise = .notice n → ∃ notice, n.notice = .ok notice) :
    ∃ halt, Raises raise halt := by
  cases raise with
  | notice n =>
    obtain ⟨notice, hn⟩ := h n rfl
    exact ⟨_, .notice hn⟩
  | exit code => exact ⟨_, .exit code⟩
  | interrupt => exact ⟨_, .interrupt⟩
  | failure f => exact ⟨_, .failure f⟩

/-- an error that cannot be pointed at is counted and said, and the report fails -/
theorem endsAs_report_error (path : String) {source : String} {e : ParseError} {place : Location} {f : Failure}
    (hplace : e.location = some place) (hfault : pointAt on source place = .error f) :
    EndsAs isFatal on (Reporting.report path source e) (.error (.failure f))
      (emphasise on (path ++ ":" ++ place.render ++ ": ") ++ alarm on "error: " ++ e.message ++ "\n") 1 := by
  rintro r - rfl
  unfold Reporting.report
  simp only [Reporting.runOn_bind, Reporting.runOn_countError, Reporting.runOn_get, hplace, Reporting.runOn_print, hfault]
  rfl

theorem exists_routed_report (path source : String) (e : ParseError) (isFatal on : Bool) :
    ∃ o said, EndsAs isFatal on (Step.report path source e).action o said 1 ∧
      Routed isFatal on (.report path source e) o said := by
  by_cases h : ∀ place, e.location = some place → ∃ shown, pointAt on source place = .ok shown
  · obtain ⟨text, htells⟩ := exists_tells_report h path
    exact ⟨_, text, htells.endsAs.giving none, .report path h text⟩
  · push Not at h
    obtain ⟨place, hplace, hshown⟩ := h
    cases hfault : pointAt on source place with
    | ok shown => exact absurd hfault (hshown shown)
    | error f => exact ⟨_, _, (endsAs_report_error path hplace hfault).giving none, .unpointed path hplace hfault _⟩

/-- a text that may fail to be made is given back, and nothing is said -/
theorem endsAs_given (f : Bool → Except Failure String) :
    EndsAs isFatal on (do return some (← Reporting.ofExcept (f (← get).painted)) : Reporting (Option String))
      ((some <$> f on).mapError .failure) "" 0 := by
  rintro r - rfl
  rw [Reporting.runOn_bind, Reporting.runOn_get]
  dsimp only
  rw [Reporting.runOn_bind, endsAs_ofExcept _ rfl rfl]
  cases f r.painted <;> rfl

/-- **A step is routed**, if the notices that it is about can be made. -/
theorem exists_routed {step : Step} (h : ∀ n ∈ step.sources, ∃ notice, n.notice = .ok notice) (isFatal on : Bool) :
    ∃ o said, EndsAs isFatal on step.action o said step.counted ∧ Routed isFatal on step o said := by
  cases step with
  | paint colour attributes text =>
    refine ⟨_, _, Tells.endsAs (tells_get_bind fun r hr => ?_), .paint colour attributes text⟩
    rw [hr]
    exact tells_pure _
  | message n =>
    obtain ⟨notice, hn⟩ := h n List.mem_cons_self
    exact ⟨_, _, (endsAs_notice hn).bind_silent (endsAs_given fun on => notice.wording (emphasise on)), .message hn⟩
  | diagnose line start stop =>
    exact ⟨_, _, endsAs_given fun on => LetFront.diagnose on line.length line.toList start stop,
      .diagnose line start stop⟩
  | report path source e => exact exists_routed_report path source e isFatal on
  | announce n =>
    obtain ⟨notice, hn⟩ := h n List.mem_cons_self
    obtain ⟨o, said, htold, hdealt⟩ := exists_dealt (.notice hn) isFatal on
    exact ⟨_, _, (endsAs_notice hn).bind_silent (htold.giving none), .announce hn hdealt⟩
  | guarded text raise? =>
    cases raise? with
    | none => exact ⟨_, _, ((tells_write text).guarded.endsAs).giving none, .finished text⟩
    | some raise =>
      obtain ⟨halt, hraises⟩ : ∃ halt, Raises raise halt := by
        refine exists_raises ?_
        rintro n rfl
        exact h n List.mem_cons_self
      obtain ⟨o, said, habsorb, hdealt⟩ := exists_dealt hraises isFatal on
      have hbody : EndsAs isFatal on (Step.body text (some raise)) (.error halt) text 0 :=
        ((tells_write text).endsAs.bind (f := fun _ => raise.action) hraises.endsAs).cast String.append_empty
      have hguarded := (hbody.guarded_error habsorb).giving (none : Option String)
      have hvalue : (o.map fun _ => (none : Option Unit)).map (fun _ => (none : Option String)) = o.map fun _ => none := by
        cases o <;> rfl
      rw [Nat.zero_add, hvalue] at hguarded
      exact ⟨_, _, hguarded, .guarded text hraises hdealt⟩

/-! ## Runs -/

/-- the reporter after actions, one after the other -/
def afterwards {α : Type} (actions : List (Reporting α)) (r : Reporter) : Reporter :=
  actions.foldl (fun r action => (action.runOn r).2) r

/-- **A run of steps is routed**, step by step; the reporter keeps how it tells, and adds what was told. -/
theorem exists_run {steps : List Step} (h : ∀ step ∈ steps, ∀ n ∈ step.sources, ∃ notice, n.notice = .ok notice)
    (isFatal on : Bool) :
    ∃ ends : List (Except Halt (Option String) × String),
      List.Forall₂ (fun step e => Routed isFatal on step e.1 e.2) steps ends ∧
      ∀ r : Reporter, r.isFatal = isFatal → r.painted = on →
        (transcript (steps.map Step.action) r).map (fun record => (record.outcome, record.printed)) = ends ∧
        afterwards (steps.map Step.action) r = r.told (String.join (ends.map Prod.snd)) (steps.map Step.counted).sum := by
  induction steps with
  | nil => exact ⟨[], .nil, fun r _ _ => ⟨rfl, r.told_nothing.symm⟩⟩
  | cons step steps ih =>
    obtain ⟨hstep, hsteps⟩ := List.forall_mem_cons.1 h
    obtain ⟨o, said, hends, hrouted⟩ := exists_routed hstep isFatal on
    obtain ⟨ends, hall, hrun⟩ := ih hsteps
    refine ⟨(o, said) :: ends, .cons hrouted hall, fun r hfatal hr => ⟨?_, ?_⟩⟩
    · have hfirst := hends (r := { r with printed := "" }) hfatal hr
      obtain ⟨hrest, -⟩ := hrun (({ r with printed := "" } : Reporter).told said step.counted) hfatal hr
      rw [List.map_cons, transcript_cons, List.map_cons, hfirst, hrest, Reporter.told, String.empty_append]
    · obtain ⟨-, hrest⟩ := hrun (r.told said step.counted) hfatal hr
      have hfirst : (step.action.runOn r).2 = r.told said step.counted := by rw [hends hfatal hr]
      calc afterwards ((step :: steps).map Step.action) r
          = afterwards (steps.map Step.action) (r.told said step.counted) := by
            rw [List.map_cons, afterwards, List.foldl_cons, hfirst, afterwards]
        _ = (r.told said step.counted).told (String.join (ends.map Prod.snd)) (steps.map Step.counted).sum := hrest
        _ = r.told (String.join (((o, said) :: ends).map Prod.snd)) ((step :: steps).map Step.counted).sum := by
            rw [r.told_told, List.map_cons, List.map_cons, String.join_cons, List.sum_cons]

/-- **Every problem goes where it should**, as far as notices can be told. In a run of steps whose notices are made, each of
them is told, and the run exits with one if errors are fatal and goes on if they are not; so is what is raised under the
care of the reporter, but for exits, which go through with their code and untold, and failures, which go through if there
was no exit. The run counts its reports and its notices, also those that fail, and whatever is raised but exits; it prints
what its steps print, and changes nothing else.

A notice that is made has a message. It is announced like that exactly if it can be worded and pointed at, and fails
otherwise. It is worded as it is where nothing is painted, and it can be worded in colour if the holes of its template ask
for no attributes and have no holes in their specifications; it is pointed at, painting or not, unless its signs cannot be
counted. The notices of the reporter itself are made like any other, and are always told. -/
theorem errors_are_routed (r : Reporter) (steps : List Step)
    (h : ∀ step ∈ steps, ∀ n ∈ step.sources, ∃ notice, n.notice = .ok notice) :
    List.Forall₂ (fun step record => Routed r.isFatal r.painted step record.outcome record.printed) steps
      (transcript (steps.map Step.action) r) ∧
    afterwards (steps.map Step.action) r =
      { r with
        errors := r.errors + (steps.map Step.counted).sum
        printed := r.printed ++ String.join ((transcript (steps.map Step.action) r).map Record.printed) } ∧
    (∀ (source : NoticeSource) (n : Notice), source.notice = .ok n →
      Text.Template.format source.members source.template source.snippets = .ok n.text ∧
      (((Reporting.announce n).runOn r).1 = exitOr r.isFatal (.ok ()) ↔
        (∃ text, announcement r.painted n = .ok text) ∧ ∃ text, n.shown r.painted = .ok text) ∧
      announcement false n = .ok ((if n.isInternal then "[internal] " else "") ++ "error: " ++ n.text ++ "\n") ∧
      (Text.Template.IsFlat source.template → ∃ text, announcement true n = .ok text) ∧
      ∀ on : Bool, (∃ text, n.shown on = .ok text) ↔
        n.IsBare ∨ isCount n.subject.length n.start = true ∧
          isCount n.subject.length (max n.stop (n.start + 1) - n.start - 1) = true) ∧
    (⟨Notice.noMembers, "keyboard interrupt", [""], 0, -1, true, false⟩ : NoticeSource).notice = .ok .interrupted ∧
    announcement false .interrupted = .ok "error: keyboard interrupt\n" ∧
    ∀ f : Failure,
      (⟨Notice.noMembers, "unknown error: '" ++ "\x7b\x7d" ++ "'", [f.label ++ ": " ++ f.text], 0, -1, false, true⟩ :
        NoticeSource).notice = .ok (.unknown f) ∧
      announcement false (.unknown f) =
        .ok ("[internal] error: unknown error: '" ++ f.label ++ ": " ++ f.text ++ "'\n") := by
  obtain ⟨ends, hall, hrun⟩ := exists_run h r.isFatal r.painted
  obtain ⟨hrecords, hafter⟩ := hrun r rfl rfl
  subst hrecords
  rw [List.map_map] at hafter
  refine ⟨List.forall₂_map_right_iff.1 hall, hafter, fun source n hn => ?_,
    NoticeSource.notice_eq (Text.Template.format_text (by decide) _ _) (List.cons_ne_nil _ _),
    Notice.announcement_unpainted _, fun f => ⟨?_, Notice.announcement_unknown f⟩⟩
  · obtain ⟨hmembers, htemplate, hsnippets⟩ := NoticeSource.eq_of_notice hn
    rw [← hmembers, ← htemplate, ← hsnippets]
    exact ⟨n.text_eq, Reporting.runOn_announce_eq_exitOr_iff n r, n.announcement_unpainted,
      fun hflat => Notice.exists_announcement_of_isFlat hflat true, n.exists_shown_iff⟩
  · exact NoticeSource.notice_eq (Text.Template.format_about (by decide) (by decide) _ _) (List.cons_ne_nil _ _)

/-- braces in a snippet and in a failure, an exit, and a report that fails -/
theorem errors_are_routed_of_braces :
    let source : NoticeSource :=
      ⟨Notice.noMembers, "'" ++ "\x7b\x7d" ++ "' could not be opened", ["\x7b1\x7d"], 0, -1, false, false⟩
    let steps : List Step :=
      [.announce source, .guarded "x" (some (.failure (.badValue "\x7b\x7d"))), .guarded "" (some (.exit (.status 3))),
        .report "f" "" ⟨"m", some ⟨0, 0⟩⟩]
    let r : Reporter := .new false false
    (∀ step ∈ steps, ∀ n ∈ step.sources, ∃ notice, n.notice = .ok notice) ∧
      (∃ notice, source.notice = .ok notice ∧
        Text.Template.format source.members source.template source.snippets = .ok notice.text ∧
        ((Reporting.announce notice).runOn r).1 = .ok () ∧ ∃ text, announcement true notice = .ok text) ∧
      List.Forall₂ (fun step record => Routed false false step record.outcome record.printed) steps
        (transcript (steps.map Step.action) r) ∧
      afterwards (steps.map Step.action) r = ⟨false, false, 3,
        "error: '\x7b1\x7d' could not be opened\nx[internal] error: unknown error: 'ValueError: \x7b\x7d'\n" ++
        "f:0:0: error: m\n"⟩ := by
  intro source steps r
  have hnotice : source.notice = .ok (.unopened "\x7b1\x7d") :=
    NoticeSource.notice_eq (Text.Template.format_about (by decide) (by decide) _ _) (List.cons_ne_nil _ _)
  have hmade : ∀ step ∈ steps, ∀ n ∈ step.sources, ∃ notice, n.notice = .ok notice := by
    have hfirst : ∀ n ∈ (Step.announce source).sources, ∃ notice, n.notice = .ok notice :=
      List.forall_mem_singleton.2 ⟨_, hnotice⟩
    simpa [steps, Step.sources] using hfirst
  obtain ⟨hrouted, hafter, htold, -⟩ := errors_are_routed r steps hmade
  obtain ⟨htext, hannounced, hplainly, hpainted, -⟩ := htold source _ hnotice
  have hflat : Text.Template.IsFlat source.template := (Text.Template.isWhole_about (by decide) (by decide)).isFlat
  exact ⟨hmade, ⟨_, hnotice, htext, hannounced.2 ⟨⟨_, hplainly⟩, ⟨"", rfl⟩⟩, hpainted hflat⟩, hrouted,
    hafter.trans (by decide +kernel)⟩

/-- a width that is a snippet is no number any more when it is painted, and a caret may stand too far out -/
theorem announce_fails_of_made :
    let wide : NoticeSource := ⟨Notice.noMembers, "\x7b:\x7b\x7d\x7d", ["a", "5"], 0, -1, false, false⟩
    let far : NoticeSource := ⟨Notice.noMembers, "m", ["a"], 2 ^ 63, -1, true, false⟩
    ¬ Text.Template.IsFlat wide.template ∧
    (∃ n, wide.notice = .ok n ∧ n.text = "a    " ∧
      ((Reporting.announce n).runOn (.new true true)).1 =
        .error (.failure (.template (.format (.invalid "\x1b[1m5\x1b[0m"))))) ∧
    ∃ n, far.notice = .ok n ∧ n.text = "m" ∧
      ((Reporting.announce n).runOn (.new true false)).1 = .error (.failure .hugeCount) := by
  intro wide far
  have hwide := NoticeSource.notice_eq
    (show Text.Template.format wide.members wide.template wide.snippets = .ok "a    " by decide +kernel)
    (List.cons_ne_nil _ _)
  have hfar := NoticeSource.notice_eq
    (show Text.Template.format far.members far.template far.snippets = .ok "m" by decide +kernel)
    (List.cons_ne_nil _ _)
  refine ⟨by decide +kernel, ⟨_, hwide, rfl, ?_⟩, ⟨_, hfar, rfl, ?_⟩⟩
  · refine congrArg Prod.fst ((endsAs_announce_unworded ?_ : EndsAs true true _ _ _ _) rfl rfl)
    decide +kernel
  · have hannouncement := Notice.announcement_unpainted
    refine congrArg Prod.fst ((endsAs_announce_unpointed (hannouncement _) ?_ : EndsAs true false _ _ _ _) rfl rfl)
    decide +kernel

end LetFront
