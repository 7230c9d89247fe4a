/-
What colours change. An action is run twice, on two reporters of which only the first paints. From plain texts the two
runs end in the same way, count the same errors and print the same, but for the escape sequences of the first; only a
notice may give them away, if it is not silent, and then it does.

`Alike R p q`: so run `p` where it paints and `q` where it does not, and `R` relates the values they end with.

Main statements: `Alike.bind` and its neighbours, what is made of such actions is such an action; `alike_step`,
`alike_parse` and `alike_answer`, a silent step, a source and a line; `transcript_alike`, a whole run;
`isSilent_of_seen`, a step that is seen the same; `transcript_steps_iff`, a run of steps; `colour_is_silent`, runs of
steps, of sources and of lines; `width_is_loud`, a notice that is not silent.
-/
import LetFront.Proofs.Report.Routing
import LetFront.Shell

namespace LetFront

/-- what ends an action early is worded in plain text, and painted silently -/
def Halt.IsPlain : Halt → Prop
  | exit _ => True
  | interrupt => True
  | notice n => n.IsPlain ∧ n.IsSilent
  | failure f => f.IsPlain

/-- a reporter that paints and one that does not, which have said and counted the same -/
structure Twins (r r' : Reporter) : Prop where
  painted : r.painted = true
  unpainted : r'.painted = false
  isFatal : r.isFatal = r'.isFatal
  errors : r.errors = r'.errors
  printed : Tinted r.printed r'.printed

variable {α β γ δ : Type} {R : α → β → Prop} {S : γ → δ → Prop}

def Alike (R : α → β → Prop) (p : Reporting α) (q : Reporting β) : Prop :=
  ∀ ⦃r r'⦄, Twins r r' → EndAlike Halt.IsPlain R (p.runOn r).1 (q.runOn r').1 ∧ Twins (p.runOn r).2 (q.runOn r').2

/-! ## Actions made of actions -/

theorem alike_pure {a : α} {b : β} (h : R a b) : Alike R (pure a) (pure b) := fun _ _ ht => ⟨.ok h, ht⟩

/-- both runs give related values, or both halt in the same plain way, and leave twins -/
theorem Alike.cases {p : Reporting α} {q : Reporting β} (h : Alike R p q) {r r' : Reporter} (ht : Twins r r') :
    (∃ a b s s', R a b ∧ Twins s s' ∧ p.runOn r = (.ok a, s) ∧ q.runOn r' = (.ok b, s')) ∨
      ∃ halt s s', halt.IsPlain ∧ Twins s s' ∧ p.runOn r = (.error halt, s) ∧ q.runOn r' = (.error halt, s') := by
  obtain ⟨hend, hafter⟩ := h ht
  revert hend hafter
  rcases p.runOn r with ⟨o, s⟩
  rcases q.runOn r' with ⟨o', s'⟩
  rintro (hR | hplain) hafter
  · exact .inl ⟨_, _, s, s', hR, hafter, rfl, rfl⟩
  · exact .inr ⟨_, s, s', hplain, hafter, rfl, rfl⟩

theorem Alike.bind {p : Reporting α} {q : Reporting β} {f : α → Reporting γ} {g : β → Reporting δ} (h : Alike R p q)
    (hf : ∀ a b, R a b → Alike S (f a) (g b)) : Alike S (p >>= f) (q >>= g) := by
  intro r r' ht
  rw [Reporting.runOn_bind, Reporting.runOn_bind]
  rcases h.cases ht with ⟨a, b, s, s', hR, hs, hp, hq⟩ | ⟨halt, s, s', hplain, hs, hp, hq⟩
  · rw [hp, hq]
    exact hf a b hR hs
  · rw [hp, hq]
    exact ⟨.error hplain, hs⟩

theorem Alike.mono {R' : α → β → Prop} {p : Reporting α} {q : Reporting β} (h : Alike R p q)
    (hR : ∀ a b, R a b → R' a b) : Alike R' p q := by
  intro r r' ht
  obtain ⟨hend, hafter⟩ := h ht
  exact ⟨hend.mono hR, hafter⟩

theorem Alike.map {p : Reporting α} {q : Reporting β} {f : α → γ} {g : β → δ} (h : Alike R p q)
    (hf : ∀ a b, R a b → S (f a) (g b)) : Alike S (f <$> p) (g <$> q) := by
  rw [← bind_pure_comp, ← bind_pure_comp]
  exact h.bind fun a b hab => alike_pure (hf a b hab)

theorem alike_get : Alike Twins (get : Reporting Reporter) get := fun _ _ ht => ⟨.ok ht, ht⟩

theorem alike_write {s t : String} (h : Tinted s t) : Alike Eq (Reporting.write s) (Reporting.write t) :=
  fun _ _ ht => ⟨.ok rfl, { ht with printed := ht.printed.append h }⟩

theorem alike_print {s t : String} (h : Tinted s t) : Alike Eq (Reporting.print s) (Reporting.print t) :=
  alike_write (h.append (show IsPlain "\n" by decide).tinted)

theorem alike_countError : Alike Eq Reporting.countError Reporting.countError :=
  fun _ _ ht => ⟨.ok rfl, { ht with errors := congrArg (· + 1) ht.errors }⟩

theorem alike_throw {halt : Halt} (h : halt.IsPlain) : Alike R (throw halt) (throw halt) :=
  fun _ _ ht => ⟨.error h, ht⟩

theorem alike_ofExcept {x : Except Failure α} {y : Except Failure β} (h : EndAlike Failure.IsPlain R x y) :
    Alike R (Reporting.ofExcept x) (Reporting.ofExcept y) := by
  cases h with
  | ok h => exact alike_pure h
  | error h => exact alike_throw h

theorem alike_gives {x : Except Failure α} {Q : α → Prop} (h : Gives Failure.IsPlain Q x) :
    Alike (fun a b => a = b ∧ Q a) (Reporting.ofExcept x) (Reporting.ofExcept x) := by
  cases x with
  | ok a => exact alike_pure ⟨rfl, h⟩
  | error f => exact alike_throw h

theorem alike_forM {xs : List γ} {f : γ → Reporting Unit} (h : ∀ x ∈ xs, Alike Eq (f x) (f x)) :
    Alike Eq (xs.forM f) (xs.forM f) := by
  induction xs with
  | nil => exact alike_pure rfl
  | cons x xs ih =>
    obtain ⟨hx, hxs⟩ := List.forall_mem_cons.1 h
    exact hx.bind fun _ _ _ => ih hxs

theorem Alike.tryCatch {p : Reporting α} {q : Reporting β} {f : Halt → Reporting α} {g : Halt → Reporting β}
    (h : Alike R p q) (hf : ∀ halt, halt.IsPlain → Alike R (f halt) (g halt)) :
    Alike R (tryCatch p f) (tryCatch q g) := by
  intro r r' ht
  rw [Reporting.runOn_tryCatch, Reporting.runOn_tryCatch]
  rcases h.cases ht with ⟨a, b, s, s', hR, hs, hp, hq⟩ | ⟨halt, s, s', hplain, hs, hp, hq⟩
  · rw [hp, hq]
    exact ⟨.ok hR, hs⟩
  · rw [hp, hq]
    exact hf halt hplain hs

/-! ## What a reporter does -/

theorem alike_report {path source : String} {e : ParseError} (hpath : IsPlain path) (hsource : IsPlain source)
    (hmessage : IsPlain e.message) :
    Alike Eq (Reporting.report path source e) (Reporting.report path source e) := by
  unfold Reporting.report
  refine alike_countError.bind fun _ _ _ => alike_get.bind fun r r' ht => ?_
  rw [ht.painted, ht.unpainted]
  have herror : Tinted (alarm true "error: ") (alarm false "error: ") := tinted_alarm (by decide)
  split
  · exact alike_print (((tinted_emphasise (hpath.append (by decide))).append herror).append hmessage.tinted)
  · next place _ =>
    have hplace : IsPlain (path ++ ":" ++ place.render ++ ": ") :=
      ((hpath.append (by decide)).append place.isPlain_render).append (by decide)
    refine (alike_print (((tinted_emphasise hplace).append herror).append hmessage.tinted)).bind fun _ _ _ => ?_
    refine (alike_ofExcept (pointAt_alike hsource place)).bind ?_
    rintro _ _ (htinted | _)
    · exact alike_print htinted
    · exact alike_pure rfl

theorem alike_message {n : Notice} (h : n.IsSilent) :
    Alike (fun s t => unpainted s = t) (Reporting.message n) (Reporting.message n) := by
  obtain ⟨message, hmessage, hunpainted⟩ := h
  unfold Reporting.message
  refine alike_get.bind fun r r' ht => ?_
  rw [ht.painted, ht.unpainted, hmessage, n.wording_unpainted]
  exact alike_pure hunpainted

/-- a fatal reporter exits, painting or not -/
theorem alike_exit_of_isFatal :
    Alike Eq (do if (← get).isFatal then throw (.exit (.status 1)) : Reporting Unit)
      (do if (← get).isFatal then throw (.exit (.status 1))) := by
  refine alike_get.bind fun r r' ht => ?_
  rw [ht.isFatal]
  split
  · exact alike_throw trivial
  · exact alike_pure rfl

theorem tinted_front (n : Notice) : Tinted (n.front true) (n.front false) := by
  have herror : Tinted (alarm true "error: ") (alarm false "error: ") := tinted_alarm (by decide)
  unfold Notice.front
  split
  · exact (tinted_alarm (by decide)).append herror
  · exact tinted_empty.append herror

theorem alike_announce {n : Notice} (h : n.IsPlain) (hsilent : n.IsSilent) :
    Alike Eq (Reporting.announce n) (Reporting.announce n) := by
  unfold Reporting.announce
  refine alike_countError.bind fun _ _ _ => alike_get.bind fun r r' ht => ?_
  rw [ht.painted, ht.unpainted]
  refine (alike_message hsilent).bind fun message _ hmessage => ?_
  subst hmessage
  have hline := (tinted_front n).append (tinted_line message)
  rw [← String.append_assoc, ← String.append_assoc] at hline
  refine (alike_write hline).bind fun _ _ _ => ?_
  dsimp only
  split
  · refine (alike_ofExcept (diagnose_alike h.subject _ _ _)).bind fun _ _ htinted => ?_
    exact (alike_print htinted).bind fun _ _ _ => alike_exit_of_isFatal
  · exact alike_exit_of_isFatal

theorem alike_absorb {halt : Halt} (h : halt.IsPlain) : Alike Eq (Reporting.absorb halt) (Reporting.absorb halt) := by
  cases halt with
  | exit code => exact alike_throw trivial
  | interrupt => exact alike_announce Notice.isPlain_interrupted Notice.isSilent_interrupted
  | notice n => exact alike_announce h.1 h.2
  | failure f =>
    exact (alike_announce (Notice.isPlain_unknown h) (Notice.isSilent_unknown h)).bind fun _ _ _ => alike_throw h

theorem Alike.guarded {p : Reporting α} {q : Reporting β} (h : Alike R p q) :
    Alike (Option.Rel R) (Reporting.guarded p) (Reporting.guarded q) := by
  have hvalue : Alike (Option.Rel R) (some <$> p) (some <$> q) := h.map fun _ _ hab => .some hab
  rw [Reporting.guarded_eq, Reporting.guarded_eq]
  exact hvalue.tryCatch fun halt hhalt => (alike_absorb hhalt).bind fun _ _ _ => alike_pure .none

/-! ## Steps -/

/-- a step with plain texts, of which also attributes are shown plainly -/
structure Step.IsPlain (step : Step) : Prop where
  texts : ∀ t ∈ step.texts, LetFront.IsPlain t
  members : ∀ source ∈ step.sources, source.members.IsPlain

/-- no notice of the step says something else in colour -/
def Step.IsSilent (step : Step) : Prop := ∀ source ∈ step.sources, ∀ n, source.notice = .ok n → n.IsSilent

/-- what is done with a silent notice from plain texts, or the failure if there can be none -/
theorem alike_notice_bind {n : NoticeSource} (hmembers : n.members.IsPlain) (h : ∀ t ∈ n.texts, IsPlain t)
    (hsilent : ∀ notice, n.notice = .ok notice → notice.IsSilent) {f g : Notice → Reporting γ} {S : γ → γ → Prop}
    (hf : ∀ notice : Notice, notice.IsPlain → notice.IsSilent → Alike S (f notice) (g notice)) :
    Alike S (Reporting.ofExcept n.notice >>= f) (Reporting.ofExcept n.notice >>= g) := by
  refine (alike_gives (NoticeSource.gives_notice hmembers h).self).bind ?_
  rintro notice _ ⟨rfl, hplain, hmade⟩
  exact hf notice hplain (hsilent notice hmade)

theorem alike_body {text : String} {raise : Option Raise} (h : (Step.guarded text raise).IsPlain)
    (hsilent : (Step.guarded text raise).IsSilent) : Alike Eq (Step.body text raise) (Step.body text raise) := by
  obtain ⟨htext, hraise⟩ := List.forall_mem_cons.1 h.texts
  cases raise with
  | none => exact alike_write htext.tinted
  | some raise =>
    refine (alike_write htext.tinted).bind fun _ _ _ => ?_
    cases raise with
    | notice n =>
      have hmembers := h.members n List.mem_cons_self
      exact alike_notice_bind hmembers hraise (hsilent n List.mem_cons_self) fun _ hn hs => alike_throw ⟨hn, hs⟩
    | exit code => exact alike_throw trivial
    | interrupt => exact alike_throw trivial
    | failure f =>
      exact alike_throw ⟨hraise _ List.mem_cons_self, hraise _ (List.mem_cons_of_mem _ List.mem_cons_self)⟩

/-- **A silent step does the same, painting or not**, but for the escape sequences in the text it gives back. -/
theorem alike_step {step : Step} (h : step.IsPlain) (hsilent : step.IsSilent) :
    Alike (fun a b => a.map unpainted = b) step.action step.action := by
  cases step with
  | paint colour attributes text =>
    refine alike_get.bind fun r r' ht => alike_pure ?_
    rw [ht.painted, ht.unpainted]
    exact congrArg some (tinted_paint _ _ (h.texts _ List.mem_cons_self).tinted).unpainted_eq
  | message n =>
    refine alike_notice_bind (h.members n List.mem_cons_self) h.texts (hsilent n List.mem_cons_self) fun _ _ hs => ?_
    exact (alike_message hs).bind fun _ _ hmessage => alike_pure (congrArg some hmessage)
  | diagnose line start stop =>
    refine alike_get.bind fun r r' ht => ?_
    rw [ht.painted, ht.unpainted]
    refine (alike_ofExcept (diagnose_alike (h.texts _ List.mem_cons_self) _ _ _)).bind fun _ _ htinted => ?_
    exact alike_pure (congrArg some htinted.unpainted_eq)
  | report path source e =>
    obtain ⟨hpath, hrest⟩ := List.forall_mem_cons.1 h.texts
    obtain ⟨hsource, hrest⟩ := List.forall_mem_cons.1 hrest
    exact (alike_report hpath hsource (hrest _ List.mem_cons_self)).bind fun _ _ _ => alike_pure rfl
  | announce n =>
    refine alike_notice_bind (h.members n List.mem_cons_self) h.texts (hsilent n List.mem_cons_self) fun _ hn hs => ?_
    exact (alike_announce hn hs).bind fun _ _ _ => alike_pure rfl
  | guarded text raise => exact (alike_body h hsilent).guarded.bind fun _ _ _ => alike_pure rfl

/-! ## What is heard of a notice -/

theorem shown_alike {n : Notice} (h : n.IsPlain) :
    EndAlike Failure.IsPlain Tinted (n.shown true) (n.shown false) := by
  unfold Notice.shown
  split
  · exact .ok tinted_empty
  · exact (diagnose_alike h.subject _ _ _).map fun _ _ htinted =>
      htinted.append (show IsPlain "\n" by decide).tinted

theorem tinted_of_shown {x y : Except Failure String} (h : EndAlike Failure.IsPlain Tinted x y) :
    Tinted (x.toOption.getD "") (y.toOption.getD "") := by
  cases h with
  | ok h => exact h
  | error _ => exact tinted_empty

/-- what is said of a notice, whether or not it can be told to the end -/
theorem said_of_dealt {isFatal on : Bool} {n : Notice} {o : Except Halt Unit} {said : String}
    (h : Dealt isFatal on (.notice n) o said) :
    said = match n.wording (emphasise on) with
      | .error _ => ""
      | .ok message => n.front on ++ message ++ "\n" ++ (n.shown on).toOption.getD "" := by
  cases hwording : n.wording (emphasise on) with
  | error f =>
    have hannouncement : announcement on n = .error f := by
      rw [announcement, hwording]
      rfl
    cases h with
    | notice h _ => cases hannouncement.symm.trans h
    | unworded _ => rfl
    | unpointed h _ => cases hannouncement.symm.trans h
  | ok message =>
    have hannouncement : announcement on n = .ok (n.front on ++ message ++ "\n") := by
      rw [announcement, hwording]
      rfl
    cases h with
    | notice h hshown =>
      obtain rfl := Except.ok.inj (hannouncement.symm.trans h)
      rw [hshown]
      rfl
    | unworded h => cases hannouncement.symm.trans h
    | unpointed h hshown =>
      obtain rfl := Except.ok.inj (hannouncement.symm.trans h)
      rw [hshown]
      exact String.append_empty.symm

/-- **A notice that sounds the same is silent.** -/
theorem isSilent_of_dealt {isFatal : Bool} {n : Notice} (hn : n.IsPlain) {o o' : Except Halt Unit} {said said' : String}
    (h : Dealt isFatal true (.notice n) o said) (h' : Dealt isFatal false (.notice n) o' said') {lead : String}
    (hlead : IsPlain lead) (hsaid : unpainted (lead ++ said) = lead ++ said') : n.IsSilent := by
  have hmore := tinted_of_shown (shown_alike hn)
  have hplainly := said_of_dealt h'
  rw [n.wording_unpainted] at hplainly
  have hpainted := said_of_dealt h
  cases hwording : n.wording (emphasise true) with
  | error f =>
    -- in colour nothing is said, but otherwise there is a line
    rw [hwording] at hpainted
    subst hpainted
    rw [String.append_empty, hlead.tinted.unpainted_eq, hplainly] at hsaid
    have hlength := congrArg String.length hsaid
    simp at hlength
  | ok message =>
    refine ⟨message, hwording, ?_⟩
    rw [hwording] at hpainted
    simp only [hpainted, hplainly, ← String.append_assoc] at hsaid
    exact unpainted_eq_of_line (hlead.tinted.append (tinted_front n)) hmore hsaid

/-- a step is about one notice at most -/
theorem Step.sources_eq {step : Step} {source : NoticeSource} (h : source ∈ step.sources) : step.sources = [source] := by
  unfold Step.sources at h ⊢
  split at h
  all_goals simp_all

/-! ## What is seen of a step -/

section Seen

variable {isFatal on : Bool} {source : NoticeSource} {n : Notice} {o : Except Halt (Option String)} {text said : String}

theorem eq_of_routed_message (hn : source.notice = .ok n) (h : Routed isFatal on (.message source) o said) :
    o = (some <$> n.wording (emphasise on)).mapError .failure := by
  cases h with
  | message h =>
    obtain rfl := Except.ok.inj (h.symm.trans hn)
    rfl

theorem dealt_of_routed_announce (hn : source.notice = .ok n) (h : Routed isFatal on (.announce source) o said) :
    ∃ o, Dealt isFatal on (.notice n) o said := by
  cases h with
  | announce h hdealt =>
    obtain rfl := Except.ok.inj (h.symm.trans hn)
    exact ⟨_, hdealt⟩

theorem dealt_of_routed_guarded (hn : source.notice = .ok n)
    (h : Routed isFatal on (.guarded text (some (.notice source))) o said) :
    ∃ o said', Dealt isFatal on (.notice n) o said' ∧ said = text ++ said' := by
  cases h with
  | guarded _ hraises hdealt =>
    cases hraises with
    | notice h =>
      obtain rfl := Except.ok.inj (h.symm.trans hn)
      exact ⟨_, _, hdealt, rfl⟩

/-- a message that is given back the same is silent -/
theorem isSilent_of_message (h : ((some <$> n.wording (emphasise true)).mapError Halt.failure).map (Option.map unpainted) =
    (some <$> n.wording (emphasise false)).mapError Halt.failure) : n.IsSilent := by
  rw [n.wording_unpainted] at h
  cases hwording : n.wording (emphasise true) with
  | error f =>
    rw [hwording] at h
    cases h
  | ok message =>
    rw [hwording] at h
    exact ⟨message, hwording, Option.some.inj (Except.ok.inj h)⟩

end Seen

/-- **A step that is seen the same is silent.** -/
theorem isSilent_of_seen {step : Step} (h : step.IsPlain) {r r' : Reporter} (ht : Twins r r') (hprinted : r.printed = "")
    (hprinted' : r'.printed = "")
    (houtcome : (step.action.runOn r).1.map (Option.map unpainted) = (step.action.runOn r').1)
    (hseen : unpainted (step.action.runOn r).2.printed = (step.action.runOn r').2.printed) : step.IsSilent := by
  intro source hsource n hn
  have hmade : ∀ n ∈ step.sources, ∃ notice, n.notice = .ok notice := by
    rw [Step.sources_eq hsource]
    exact List.forall_mem_singleton.2 ⟨n, hn⟩
  obtain ⟨o, said, hends, hrouted⟩ := exists_routed hmade r.isFatal true
  obtain ⟨o', said', hends', hrouted'⟩ := exists_routed hmade r.isFatal false
  rw [hends rfl ht.painted, hends' ht.isFatal.symm ht.unpainted] at houtcome hseen
  simp only [Reporter.told, hprinted, hprinted', String.empty_append] at houtcome hseen
  have hplain : (∀ t ∈ source.texts, IsPlain t) → n.IsPlain := fun htexts => by
    have hgives := NoticeSource.gives_notice (h.members source hsource) htexts
    rwa [hn] at hgives
  cases step with
  | paint | diagnose | report => cases hsource
  | message source' =>
    obtain rfl := List.mem_singleton.1 hsource
    rw [eq_of_routed_message hn hrouted, eq_of_routed_message hn hrouted'] at houtcome
    exact isSilent_of_message houtcome
  | announce source' =>
    obtain rfl := List.mem_singleton.1 hsource
    obtain ⟨_, hdealt⟩ := dealt_of_routed_announce hn hrouted
    obtain ⟨_, hdealt'⟩ := dealt_of_routed_announce hn hrouted'
    rw [← String.empty_append (s := said), ← String.empty_append (s := said')] at hseen
    exact isSilent_of_dealt (hplain h.texts) hdealt hdealt' (by decide) hseen
  | guarded text raise =>
    obtain ⟨htext, htexts⟩ := List.forall_mem_cons.1 h.texts
    cases raise with
    | none => cases hsource
    | some raise =>
      cases raise with
      | exit | interrupt | failure => cases hsource
      | notice source' =>
        obtain rfl := List.mem_singleton.1 hsource
        obtain ⟨_, said, hdealt, rfl⟩ := dealt_of_routed_guarded hn hrouted
        obtain ⟨_, said', hdealt', rfl⟩ := dealt_of_routed_guarded hn hrouted'
        exact isSilent_of_dealt (hplain htexts) hdealt hdealt' htext hseen

/-! ## Sources and lines -/

/-- **A source is read as the same program, with the same reports**, painting or not. -/
theorem alike_parse {s : Session} (source? : Option String) (hpath : IsPlain s.path)
    (hsource : IsPlain (source?.getD s.source)) :
    Alike (fun p p' => p = p' ∧ IsPlain p.display) (s.parse source?) (s.parse source?) := by
  refine (alike_forM fun e he => ?_).bind fun _ _ _ => alike_pure ⟨rfl, isPlain_display_ofString _⟩
  exact alike_report hpath hsource (isPlain_message_of_mem_errors he)

theorem isPlain_helpText : IsPlain Shell.helpText := by
  unfold Shell.helpText
  simp only [isPlain_append]
  refine ⟨⟨⟨⟨?_, ?_⟩, ?_⟩, ?_⟩, ?_⟩ <;> decide +kernel

theorem alike_obey {s : Shell} {command : Shell.Command} (hpath : IsPlain s.session.path)
    (hsource : ∀ source, command = .parse source → IsPlain source) : Alike Eq (s.obey command) (s.obey command) := by
  cases command with
  | nothing => exact alike_pure rfl
  | listTokens =>
    have hlist : Alike Eq ((s.session.tokens (some s.typed)).forM (Reporting.print ·.render))
        ((s.session.tokens (some s.typed)).forM (Reporting.print ·.render)) :=
      alike_forM fun t _ => alike_print t.isPlain_render.tinted
    exact hlist.guarded.bind fun _ _ _ => alike_pure rfl
  | parse source =>
    have hshow : Alike Eq (do Reporting.print (← s.session.parse (some source)).display)
        (do Reporting.print (← s.session.parse (some source)).display) := by
      refine (alike_parse (some source) hpath (hsource source rfl)).bind ?_
      rintro p _ ⟨rfl, hdisplay⟩
      exact alike_print hdisplay.tinted
    exact hshow.guarded.bind fun _ _ _ => alike_pure rfl
  | help => exact (alike_print isPlain_helpText.tinted).bind fun _ _ _ => alike_pure rfl
  | endOfInput => exact (alike_print tinted_empty).bind fun _ _ _ => alike_pure rfl
  | exit => exact alike_pure rfl

theorem not_mem_spellHelp {cs : List Char} (h : '\x1b' ∉ cs) : '\x1b' ∉ Shell.spellHelp cs := by
  unfold Shell.spellHelp
  split
  · rw [List.mem_append, not_or]
    exact ⟨by decide, fun hmem => h (List.mem_cons_of_mem _ hmem)⟩
  · exact h

theorem not_mem_trim {cs : List Char} (h : '\x1b' ∉ cs) : '\x1b' ∉ Text.trim cs := fun hmem =>
  h ((List.dropWhile_suffix _).mem (List.mem_reverse.1 ((List.dropWhile_suffix _).mem (List.mem_reverse.1 hmem))))

/-- the source that a plain line asks to parse is plain -/
theorem isPlain_of_ofLine_eq_parse {line source : String} (h : IsPlain line)
    (hparse : Shell.Command.ofLine line = .parse source) : IsPlain source := by
  unfold Shell.Command.ofLine at hparse
  split at hparse
  · cases hparse
  · cases hparse
  · next cs _ _ =>
    unfold Shell.named at hparse
    split at hparse
    · have hrest : '\x1b' ∉ (Shell.spellHelp (Text.trim line.toList)).dropWhile Shell.isCommandChar := fun hmem =>
        not_mem_spellHelp (not_mem_trim h) ((List.dropWhile_suffix _).mem hmem)
      rw [← Shell.Command.parse.inj hparse]
      exact isPlain_ofList (not_mem_trim hrest)
    all_goals cases hparse

/-- **A line is answered in the same way**, painting or not. -/
theorem alike_answer {s : Shell} {line : String} (hpath : IsPlain s.session.path) (hline : IsPlain line) :
    Alike Eq (s.answer line) (s.answer line) :=
  alike_obey hpath fun _ hparse => isPlain_of_ofLine_eq_parse hline hparse

/-! ## Runs -/

/-- what is seen of an action, without the escape sequences in what it printed; `f` takes them out of its value -/
def Record.unpainted (f : α → α) (record : Record α) : Record α :=
  ⟨record.outcome.map f, LetFront.unpainted record.printed, record.errors⟩

/-- the answers to lines, one after the other, also behind one that asks to leave -/
def Shell.answers : Shell → List String → List (Reporting Bool)
  | _, [] => []
  | s, line :: lines => s.answer line :: (s.note line).answers lines

theorem exists_of_mem_answers {s : Shell} {lines : List String} {p : Reporting Bool} (h : p ∈ s.answers lines) :
    ∃ s' line, s'.session = s.session ∧ line ∈ lines ∧ p = Shell.answer s' line := by
  induction lines generalizing s with
  | nil => cases h
  | cons line lines ih =>
    rcases List.mem_cons.1 h with rfl | h
    · exact ⟨s, line, rfl, List.mem_cons_self, rfl⟩
    · obtain ⟨s', line', hsession, hline, rfl⟩ := ih h
      exact ⟨s', line', hsession, List.mem_cons_of_mem _ hline, rfl⟩

theorem EndAlike.map_eq {f : α → α} {x y : Except Halt α} (h : EndAlike Halt.IsPlain (fun a b => f a = b) x y) :
    x.map f = y := by
  cases h with
  | ok h => exact congrArg Except.ok h
  | error _ => rfl

/-- **An action and a run behind it** are seen the same, if the action is and the run is. -/
theorem transcript_cons_alike {f : α → α} {p : Reporting α} {actions : List (Reporting α)}
    (h : Alike (fun a b => f a = b) p p) {r r' : Reporter} (ht : Twins { r with printed := "" } { r' with printed := "" }) :
    (transcript (p :: actions) r).map (Record.unpainted f) = transcript (p :: actions) r' ↔
      (transcript actions (p.runOn { r with printed := "" }).2).map (Record.unpainted f) =
        transcript actions (p.runOn { r' with printed := "" }).2 := by
  obtain ⟨hend, hafter⟩ := h ht
  rw [transcript_cons, transcript_cons, List.map_cons, Record.unpainted, hend.map_eq, hafter.printed.unpainted_eq,
    hafter.errors, List.cons.injEq, and_iff_right rfl]

/-- **A run of such actions is seen the same**, but for the escape sequences. -/
theorem transcript_alike {f : α → α} {actions : List (Reporting α)}
    (h : ∀ p ∈ actions, Alike (fun a b => f a = b) p p) {r r' : Reporter}
    (ht : Twins { r with printed := "" } { r' with printed := "" }) :
    (transcript actions r).map (Record.unpainted f) = transcript actions r' := by
  induction actions generalizing r r' with
  | nil => rfl
  | cons p actions ih =>
    obtain ⟨hp, hactions⟩ := List.forall_mem_cons.1 h
    obtain ⟨-, hafter⟩ := hp ht
    exact (transcript_cons_alike hp ht).2 (ih hactions { hafter with printed := tinted_empty })

/-- **A run of steps is seen the same if its notices are silent**, and in no other case. -/
theorem transcript_steps_iff {steps : List Step} (h : ∀ step ∈ steps, step.IsPlain) {r r' : Reporter}
    (ht : Twins { r with printed := "" } { r' with printed := "" }) :
    (transcript (steps.map Step.action) r).map (Record.unpainted (Option.map unpainted)) =
        transcript (steps.map Step.action) r' ↔
      ∀ step ∈ steps, step.IsSilent := by
  induction steps generalizing r r' with
  | nil => simp [transcript]
  | cons step steps ih =>
    obtain ⟨hstep, hsteps⟩ := List.forall_mem_cons.1 h
    -- behind a silent step the two reporters are twins again
    have hrest : step.IsSilent →
        ((transcript ((step :: steps).map Step.action) r).map (Record.unpainted (Option.map unpainted)) =
            transcript ((step :: steps).map Step.action) r' ↔
          ∀ step ∈ steps, step.IsSilent) := fun hsilent => by
      obtain ⟨-, hafter⟩ := alike_step hstep hsilent ht
      rw [List.map_cons, transcript_cons_alike (alike_step hstep hsilent) ht]
      exact ih hsteps { hafter with printed := tinted_empty }
    rw [List.forall_mem_cons]
    constructor
    · intro hseen
      have hfirst := (List.cons.inj hseen).1
      have hsilent : step.IsSilent :=
        isSilent_of_seen hstep ht rfl rfl (congrArg Record.outcome hfirst) (congrArg Record.printed hfirst)
      exact ⟨hsilent, (hrest hsilent).1 hseen⟩
    · rintro ⟨hsilent, hsteps⟩
      exact (hrest hsilent).2 hsteps

theorem twins_of_painted (r : Reporter) :
    Twins { r with painted := true, printed := "" } { r with painted := false, printed := "" } :=
  ⟨rfl, rfl, rfl, rfl, tinted_empty⟩

/-- **Colours are silent where notices are.** Steps in plain text end in the same way, give the same texts, count the same
errors and print the same, whether or not the reporter paints, but for the escape sequences that it puts into what it
prints and gives back if it does, exactly if the notices that they are about are painted silently; and a notice is, if
its template puts its snippets in as they are. Sources and lines in plain text are always answered in the same way. -/
theorem colour_is_silent (r : Reporter) :
    (∀ steps : List Step, (∀ step ∈ steps, step.IsPlain) →
      ((transcript (steps.map Step.action) { r with painted := true }).map (Record.unpainted (Option.map unpainted)) =
          transcript (steps.map Step.action) { r with painted := false } ↔
        ∀ step ∈ steps, step.IsSilent)) ∧
    (∀ source : NoticeSource, source.members.IsPlain → (∀ t ∈ source.texts, IsPlain t) →
      Text.Template.IsWhole source.template → ∀ n, source.notice = .ok n → n.IsSilent) ∧
    (∀ (s : Session) (sources : List (Option String)), IsPlain s.path →
      (∀ source? ∈ sources, IsPlain (source?.getD s.source)) →
      (transcript (sources.map s.parse) { r with painted := true }).map (Record.unpainted id) =
        transcript (sources.map s.parse) { r with painted := false }) ∧
    (∀ (s : Shell) (lines : List String), IsPlain s.session.path → (∀ line ∈ lines, IsPlain line) →
      (transcript (s.answers lines) { r with painted := true }).map (Record.unpainted id) =
        transcript (s.answers lines) { r with painted := false }) := by
  refine ⟨fun steps h => transcript_steps_iff h (twins_of_painted r), fun source hmembers h hwhole n hn => ?_,
    fun s sources hpath h => ?_, fun s lines hpath h => ?_⟩
  · have hplain := NoticeSource.gives_notice hmembers h
    rw [hn] at hplain
    exact hplain.isSilent_of_isWhole ((NoticeSource.eq_of_notice hn).2.1 ▸ hwhole)
  · refine transcript_alike (fun p hp => ?_) (twins_of_painted r)
    obtain ⟨source?, hsource, rfl⟩ := List.mem_map.1 hp
    exact (alike_parse source? hpath (h source? hsource)).mono fun _ _ hab => hab.1
  · refine transcript_alike (fun p hp => ?_) (twins_of_painted r)
    obtain ⟨s', line, hsession, hline, rfl⟩ := exists_of_mem_answers hp
    exact alike_answer (hsession ▸ hpath) (h line hline)

/-- a notice about an `x`, a source with a name alone, and the same as a line -/
theorem colour_is_silent_about_x :
    let source : NoticeSource := ⟨Notice.noMembers, "bad '" ++ "\x7b\x7d" ++ "'", ["x"], 0, -1, true, false⟩
    let step := Step.announce source
    let s : Session := ⟨"f", false, "x"⟩
    let shell := Shell.new ⟨Session.typedName, true, ""⟩
    step.IsPlain ∧ Text.Template.IsWhole source.template ∧ step.IsSilent ∧
      IsPlain s.path ∧ IsPlain s.source ∧ IsPlain shell.session.path ∧
      (transcript [step.action] (.new true true)).map (·.printed) =
        ["\x1b[1m\x1b[31merror: \x1b[0mbad '\x1b[1mx\x1b[0m'\n  \x1b[1m\x1b[31mx\x1b[0m\n  \x1b[1m\x1b[31m^\x1b[0m\n"] ∧
      (transcript [step.action] (.new true true)).map (unpainted ·.printed) = ["error: bad 'x'\n  x\n  ^\n"] ∧
      (transcript [s.parse none] (.new true true)).map (unpainted ·.printed) =
        ["f:1:0: error: unexpected token: Identifier\n  x\n  ^\n"] ∧
      (transcript (shell.answers ["x"]) (.new true true)).map (unpainted ·.printed) =
        ["Token(Identifier, 'x', 1:0)\nToken(EOF, '', 1:1)\n"] := by
  intro source step s shell
  have hstep : step.IsPlain := ⟨by decide, List.forall_mem_singleton.2 Notice.isPlain_noMembers⟩
  have hwhole : Text.Template.IsWhole source.template := Text.Template.isWhole_about (by decide) (by decide)
  obtain ⟨hsteps, hsilent, hsources, hlines⟩ := colour_is_silent (.new true true)
  have hstepSilent : step.IsSilent :=
    List.forall_mem_singleton.2 (hsilent source Notice.isPlain_noMembers hstep.texts hwhole)
  have hannounced := congrArg (List.map Record.printed)
    ((hsteps [step] (List.forall_mem_singleton.2 hstep)).2 (List.forall_mem_singleton.2 hstepSilent))
  have hparsed := congrArg (List.map Record.printed)
    (hsources s [none] (by decide) (List.forall_mem_singleton.2 (show IsPlain "x" by decide)))
  have hanswered := congrArg (List.map Record.printed)
    (hlines shell ["x"] (by decide) (List.forall_mem_singleton.2 (by decide)))
  rw [List.map_map] at hannounced hparsed hanswered
  exact ⟨hstep, hwhole, hstepSilent, by decide, by decide, by decide, by decide +kernel,
    hannounced.trans (by decide +kernel), hparsed.trans (by decide +kernel), hanswered.trans (by decide +kernel)⟩

/-- a width is counted with the escape sequences of a painted snippet -/
theorem width_is_loud :
    let source : NoticeSource := ⟨Notice.noMembers, "\x7b:>5\x7d", ["a"], 0, -1, false, false⟩
    let step := Step.announce source
    step.IsPlain ∧ ¬ Text.Template.IsWhole source.template ∧
      (transcript [step.action] (.new true false)).map (·.printed) = ["error:     a\n"] ∧
      (transcript [step.action] (.new true true)).map (·.printed) =
        ["\x1b[1m\x1b[31merror: \x1b[0m\x1b[1ma\x1b[0m\n"] ∧
      (transcript [step.action] (.new true true)).map (unpainted ·.printed) = ["error: a\n"] := by
  intro source step
  have hpainted : (transcript [step.action] (.new true true)).map (·.printed) =
      [alarm true "error: " ++ emphasise true "a" ++ "\n"] := by decide +kernel
  have hline : Tinted (alarm true "error: " ++ emphasise true "a" ++ "\n") ("error: " ++ "a" ++ "\n") :=
    ((tinted_alarm (by decide)).append (tinted_emphasise (by decide))).append (show IsPlain "\n" by decide).tinted
  have hnot : ¬ Text.Template.IsWhole source.template := fun h => by
    have hfield : ⟨[], none, ['>', '5']⟩ ∈ Text.Template.fields "\x7b:>5\x7d" := by decide
    exact List.cons_ne_nil _ _ (h _ hfield).spec
  have hstep : step.IsPlain := ⟨by decide, List.forall_mem_singleton.2 Notice.isPlain_noMembers⟩
  refine ⟨hstep, hnot, by decide +kernel, hpainted.trans (by decide +kernel), ?_⟩
  have hunpainted := congrArg (List.map unpainted) hpainted
  rw [List.map_map, List.map_singleton, hline.unpainted_eq] at hunpainted
  exact hunpainted.trans (by decide)

end LetFront
