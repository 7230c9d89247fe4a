/-
A run over a file, from its arguments to its end. The arguments are the file and the two flags, in any order and each flag
as often as one likes; they say which file is read, whether its tokens are listed, and whether anything is painted.

If the session cannot be opened, whatever the reason, one message is printed, and the run exits with one. Otherwise it
ends with a status: zero after the tokens, and after the program zero or one, by whether the program has errors. So a run
ends in no other way, and never without a status.

Main statements: `read_file`, what the arguments ask for; `runOn_guarded_error`, how a fatal reporter deals with a session
that cannot be opened; `run_over_file`, how a run ends and what it prints.
-/
import LetFront.CommandLine.Run
import LetFront.Proofs.Report.Routing
import LetFront.Proofs.Session.Opening
import LetFront.Proofs.Shell.Dispatch

namespace LetFront

/-! ## Arguments -/

namespace CommandLine

/-- an argument that is one of the two flags, written in full -/
def IsFlag (a : String) : Prop := a = "--tokens" ∨ a = "--no-color"

instance (a : String) : Decidable (IsFlag a) := inferInstanceAs (Decidable (_ ∨ _))

/-- an argument that is a flag in full or an operand, by itself -/
def wordOf (a : String) : Word :=
  if a = "--tokens" then .flag .tokens false none
  else if a = "--no-color" then .flag .noColour false none
  else .operand a

theorem classify_flag {a : String} (h : IsFlag a) : classify a = .ok (wordOf a) ∧ a ≠ "--" := by
  rcases h with rfl | rfl
  · exact ⟨by cbv, by decide⟩
  · exact ⟨by cbv, by decide⟩

theorem wordOf_operand {a : String} (h : a.toList.head? ≠ some '-') : wordOf a = .operand a := by
  have htokens : a ≠ "--tokens" := fun ha => h (ha ▸ rfl)
  have hcolour : a ≠ "--no-color" := fun ha => h (ha ▸ rfl)
  rw [wordOf, if_neg htokens, if_neg hcolour]

theorem classify_operand {a : String} (h : a.toList.head? ≠ some '-') : classify a = .ok (wordOf a) ∧ a ≠ "--" := by
  refine ⟨?_, fun ha => h (ha ▸ rfl)⟩
  rw [wordOf_operand h]
  unfold classify
  split
  · next cs hcs => exact absurd (by rw [hcs]; rfl) h
  · rfl

theorem classifyAll_eq {as : List String} (h : ∀ a ∈ as, classify a = .ok (wordOf a) ∧ a ≠ "--") :
    classifyAll as = .ok (as.map wordOf) := by
  induction as with
  | nil => rfl
  | cons a as ih =>
    obtain ⟨⟨ha, hne⟩, has⟩ := List.forall_mem_cons.1 h
    unfold classifyAll
    rw [if_neg hne, ha, ih has]
    rfl

/-- flags are taken one after the other -/
def Progress.flagged (p : Progress) (as : List String) : Progress :=
  as.foldl (fun p a => p.set (if a = "--tokens" then .tokens else .noColour)) p

theorem take_flags {as : List String} (h : ∀ a ∈ as, IsFlag a) (p : Progress) (ws : List Word) :
    take p (as.map wordOf ++ ws) = take (p.flagged as) ws := by
  induction as generalizing p with
  | nil => rfl
  | cons a as ih =>
    obtain ⟨ha, has⟩ := List.forall_mem_cons.1 h
    rw [List.map_cons, List.cons_append]
    rcases ha with rfl | rfl
    · exact ih has (p.set .tokens)
    · exact ih has (p.set .noColour)

/-- what flags change: the two things that they ask for -/
theorem Progress.request_flagged {as : List String} (h : ∀ a ∈ as, IsFlag a) (p : Progress) :
    (p.flagged as).request = { p.request with
      listTokens := p.request.listTokens || as.contains "--tokens"
      noColour := p.request.noColour || as.contains "--no-color" } ∧
    (p.flagged as).extras = p.extras := by
  induction as generalizing p with
  | nil => simp [flagged]
  | cons a as ih =>
    obtain ⟨ha, has⟩ := List.forall_mem_cons.1 h
    rcases ha with rfl | rfl
    · obtain ⟨hrequest, hextras⟩ := ih has (p.set .tokens)
      refine ⟨?_, hextras⟩
      change ((p.set .tokens).flagged as).request = _
      rw [hrequest]
      simp [Progress.set]
    · obtain ⟨hrequest, hextras⟩ := ih has (p.set .noColour)
      refine ⟨?_, hextras⟩
      change ((p.set .noColour).flagged as).request = _
      rw [hrequest]
      simp [Progress.set]

/-- **What a file and flags ask for.** -/
theorem read_file {path : String} (hpath : path.toList.head? ≠ some '-') {before after : List String}
    (hflags : ∀ a ∈ before ++ after, IsFlag a) :
    read (before ++ path :: after) = .ok (.request {
      file := some path
      listTokens := (before ++ after).contains "--tokens"
      noColour := (before ++ after).contains "--no-color" }) := by
  obtain ⟨hbefore, hafter⟩ := List.forall_mem_append.1 hflags
  have hwords : classifyAll (before ++ path :: after) =
      .ok (before.map wordOf ++ .operand path :: after.map wordOf) := by
    have hall : ∀ a ∈ before ++ path :: after, classify a = .ok (wordOf a) ∧ a ≠ "--" :=
      List.forall_mem_append.2 ⟨fun a ha => classify_flag (hbefore a ha),
        List.forall_mem_cons.2 ⟨classify_operand hpath, fun a ha => classify_flag (hafter a ha)⟩⟩
    rw [classifyAll_eq hall, List.map_append, List.map_cons, wordOf_operand hpath]
  obtain ⟨hrequest, hextras⟩ := Progress.request_flagged hbefore .start
  have hoperand : (Progress.start.flagged before).takeOperand path =
      { Progress.start.flagged before with
        request := { (Progress.start.flagged before).request with file := some path }, fileJustTaken := true } := by
    rw [Progress.takeOperand, hrequest]
    rfl
  obtain ⟨hrequest', hextras'⟩ := Progress.request_flagged hafter ((Progress.start.flagged before).takeOperand path)
  calc read (before ++ path :: after)
      = take .start (before.map wordOf ++ .operand path :: after.map wordOf) := by rw [read, hwords]; rfl
    _ = take ((Progress.start.flagged before).takeOperand path) (after.map wordOf ++ []) := by
      rw [take_flags hbefore, take, List.append_nil]
    _ = .ok (.request (((Progress.start.flagged before).takeOperand path).flagged after).request) := by
      rw [take_flags hafter, take, hextras', hoperand, hextras]
      rfl
    _ = _ := by
      rw [hrequest', hoperand, hrequest]
      simp [Progress.start]

end CommandLine

/-! ## Messages -/

/-- the notice that tells of what ended an action early -/
inductive ToldAs : Halt → Notice → Prop
  | interrupt : ToldAs .interrupt .interrupted
  | notice (n : Notice) : ToldAs (.notice n) n
  | failure (f : Failure) : ToldAs (.failure f) (.unknown f)

namespace Reporting

variable {r r' : Reporter} {n : Notice} {halt : Halt}

/-- a fatal reporter tells a notice that points at nothing by its message, and exits -/
theorem runOn_absorb {text : String} (h : ToldAs halt n) (hn : n.IsBare) (htext : announcement r.painted n = .ok text)
    (hfatal : r.isFatal = true) : (absorb halt).runOn r = (.error (.exit (.status 1)), r.told text 1) := by
  have hannounce : (announce n).runOn r = (.error (.exit (.status 1)), r.told text 1) :=
    endsAs_announce_bare htext hn hfatal rfl
  cases h with
  | interrupt => exact hannounce
  | notice => exact hannounce
  | failure f => rw [absorb, runOn_bind, hannounce]

/-- **Whatever ends an action early is told, and the run exits.** -/
theorem runOn_guarded_error {α : Type} {action : Reporting α} {text : String}
    (hrun : action.runOn r = (.error halt, r')) (h : ToldAs halt n) (hn : n.IsBare)
    (htext : announcement r'.painted n = .ok text) (hfatal : r'.isFatal = true) :
    (guarded action).runOn r = (.error (.exit (.status 1)), r'.told text 1) := by
  rw [runOn_guarded_of_error hrun, runOn_bind, runOn_absorb h hn htext hfatal]

end Reporting

/-! ## Opening the session of a file -/

namespace Session

variable {d : Directory} {path : String} {r : Reporter}

/-- opening the session of a file says nothing -/
theorem runOn_start (d : Directory) (path : String) (r : Reporter) :
    (start d path false).runOn r = (opened d path false r, r) := by
  refine Prod.ext rfl ?_
  unfold start
  simp only [Bool.false_eq_true, ↓reduceIte]
  by_cases h : path = typedName
  · simp only [ne_eq, h, not_true_eq_false, ↓reduceIte]
    rfl
  · simp only [ne_eq, h, not_false_eq_true, ↓reduceIte]
    cases d.read path <;> rfl

/-- **A session that cannot be opened is told of**, painting or not, without pointing at anything. -/
theorem exists_told_of_opened {halt : Halt} (h : opened d path false r = .error halt) :
    ∃ n, ToldAs halt n ∧ n.IsBare ∧ ∀ on, ∃ text, announcement on n = .ok text := by
  by_cases hpath : path = typedName
  · subst hpath
    obtain rfl := Except.error.inj h
    exact ⟨_, .notice _, .inr (.inl rfl), fun _ => Notice.exists_announcement ⟨_, Notice.wording_plain _ _⟩⟩
  · rw [opened_file d hpath, map_eq_error_iff] at h
    rcases d.read_cases path with ⟨-, hread⟩ | ⟨-, -, hread⟩ | ⟨_, -, hread⟩ | ⟨_, _, -, -, hread⟩
    · obtain rfl := Except.error.inj (h.symm.trans hread)
      exact ⟨_, .failure _, .inl rfl, fun on => Notice.exists_announcement_unknown on _⟩
    · obtain rfl := Except.error.inj (h.symm.trans hread)
      exact ⟨_, .notice _, .inr (.inr rfl), fun _ => Notice.exists_announcement ⟨_, Notice.wording_about _ _ _ _ _⟩⟩
    · rw [hread] at h
      cases h
    · obtain rfl := Except.error.inj (h.symm.trans hread)
      exact ⟨_, .failure _, .inl rfl, fun on => Notice.exists_announcement_unknown on _⟩

theorem path_of_opened {s : Session} (h : opened d path false r = .ok s) : s.path = path := by
  by_cases hpath : path = typedName
  · subst hpath
    cases h
  · rw [opened_file d hpath] at h
    obtain ⟨_, -, rfl⟩ := map_eq_ok_iff.1 h
    rfl

end Session

/-! ## Runs -/

namespace CommandLine

variable {on : Bool}

/-- the tokens of a session are listed -/
theorem tells_tokens (s : Session) :
    Tells on (do
      (s.tokens none).forM (Reporting.print ·.render)
      return (0 : Int)) 0 (Shell.listing s.source) 0 :=
  ((Shell.tells_listing on s.source).bind (f := fun _ => pure 0) (tells_pure 0)).cast String.append_empty rfl

/-- the errors of a session are reported, and its program is shown -/
theorem tells_program (s : Session) :
    Tells on (do
      let p ← s.parse none
      Reporting.print p.display
      return if p.ok then (0 : Int) else 1) (if (Program.ofString s.source).ok then 0 else 1)
      (Shell.parsing on s.path s.source) (Program.ofString s.source).errors.length := by
  have hparse : Tells on (s.parse none) (Program.ofString s.source) _ _ := tells_parse on s s.source
  have hshow : Tells on (do
      Reporting.print (Program.ofString s.source).display
      return if (Program.ofString s.source).ok then (0 : Int) else 1) _ _ 0 := (tells_print _).before (tells_pure _)
  exact (hparse.bind hshow).cast (by rw [String.append_empty]; rfl) rfl

/-- what a run does with the file, under the care of its reporter -/
theorem runOn_perform_error {d : Directory} {path : String} {input : List String} {listTokens noColour : Bool}
    {r : Reporter} {halt : Halt} (h : Session.opened d path false r = .error halt) (hfatal : r.isFatal = true) :
    ∃ n text, ToldAs halt n ∧ announcement r.painted n = .ok text ∧
      (perform d input ⟨some path, listTokens, noColour⟩).runOn r = (.error (.exit (.status 1)), r.told text 1) := by
  obtain ⟨n, htold, hbare, hworded⟩ := Session.exists_told_of_opened h
  obtain ⟨text, htext⟩ := hworded r.painted
  have hshow : (showFile d path listTokens).runOn r = (.error halt, r) := by
    rw [showFile, Reporting.runOn_bind, Session.runOn_start, h]
  exact ⟨n, text, htold, htext, Reporting.runOn_guarded_error hshow htold hbare htext hfatal⟩

theorem runOn_perform_ok {d : Directory} {path : String} {input : List String} {listTokens noColour : Bool}
    {r : Reporter} {s : Session} (h : Session.opened d path false r = .ok s) :
    (perform d input ⟨some path, listTokens, noColour⟩).runOn r =
      if listTokens then (.ok (some 0), r.told (Shell.listing s.source) 0)
      else (.ok (some (if (Program.ofString s.source).ok then 0 else 1)),
        r.told (Shell.parsing r.painted path s.source) (Program.ofString s.source).errors.length) := by
  cases listTokens with
  | true =>
    refine Reporting.runOn_guarded_ok (?_ : (showFile d path true).runOn r = _)
    rw [showFile, Reporting.runOn_bind, Session.runOn_start, h]
    exact tells_tokens s rfl
  | false =>
    refine Reporting.runOn_guarded_ok (?_ : (showFile d path false).runOn r = _)
    rw [showFile, Reporting.runOn_bind, Session.runOn_start, h, ← Session.path_of_opened h]
    exact tells_program s rfl

section

variable (e : Environment) (d : Directory) (input : String) {path : String} (hpath : path.toList.head? ≠ some '-')
  {before after : List String} (hflags : ∀ a ∈ before ++ after, IsFlag a)

include hpath hflags

/-- a run over a file performs what is asked for on a new fatal reporter -/
theorem exists_run_eq :
    ∃ lines ending reporter,
      (perform d lines ⟨some path, (before ++ after).contains "--tokens", (before ++ after).contains "--no-color"⟩).runOn
        (.new true (e.allowsColour && !(before ++ after).contains "--no-color")) = (ending, reporter) ∧
      run e d input (before ++ path :: after) = ⟨ending, reporter.printed, ""⟩ := by
  refine ⟨(Text.inputLines (Text.unifyNewlines input.toList)).map String.ofList, _, _, rfl, ?_⟩
  rw [run, read_file hpath hflags]
  rfl

/-- the run over a file whose session cannot be opened -/
theorem run_unopened {halt : Halt} (hon : on = (e.allowsColour && !(before ++ after).contains "--no-color"))
    (hopened : Session.opened d path false (.new true on) = .error halt) :
    ∃ n text, ToldAs halt n ∧ announcement on n = .ok text ∧
      run e d input (before ++ path :: after) = ⟨.error (.exit (.status 1)), text, ""⟩ := by
  subst hon
  obtain ⟨lines, ending, reporter, hperform, hrun⟩ := exists_run_eq e d input hpath hflags
  obtain ⟨n, text, htold, htext, herror⟩ := runOn_perform_error hopened rfl
  obtain ⟨rfl, rfl⟩ := Prod.mk.inj (hperform.symm.trans herror)
  refine ⟨n, text, htold, htext, hrun.trans ?_⟩
  rw [Reporter.told, Reporter.new, String.empty_append]

/-- the run over a file whose session is opened -/
theorem run_opened {s : Session} (hon : on = (e.allowsColour && !(before ++ after).contains "--no-color"))
    (hopened : Session.opened d path false (.new true on) = .ok s) :
    run e d input (before ++ path :: after) =
      if "--tokens" ∈ before ++ after then ⟨.ok (some 0), Shell.listing s.source, ""⟩
      else ⟨.ok (some (if (Program.ofString s.source).errors = [] then 0 else 1)), Shell.parsing on path s.source, ""⟩ := by
  subst hon
  obtain ⟨lines, ending, reporter, hperform, hrun⟩ := exists_run_eq e d input hpath hflags
  have hok := hperform.symm.trans (runOn_perform_ok hopened)
  simp only [List.contains_iff_mem] at hok
  split at hok
  · obtain ⟨rfl, rfl⟩ := Prod.mk.inj hok
    rw [if_pos ‹_›, hrun, Reporter.told, Reporter.new, String.empty_append]
  · obtain ⟨rfl, rfl⟩ := Prod.mk.inj hok
    rw [if_neg ‹_›, hrun, Reporter.told, Reporter.new, String.empty_append]
    simp only [Program.ok, List.isEmpty_iff]

end

/-- **A run over a file ends with a status**, and nothing else can end it. If the session of the file cannot be opened, one
message tells of that and the run exits with one. Otherwise it lists the tokens of the text and ends with zero, if that
was asked for; or else it reports the errors of the text in order and shows its program, and ends with one if there are
any errors and with zero if there are none. -/
theorem run_over_file (e : Environment) (d : Directory) (input : String) {path : String}
    (hpath : path.toList.head? ≠ some '-') {before after : List String} (hflags : ∀ a ∈ before ++ after, IsFlag a) :
    let on := e.allowsColour && !(before ++ after).contains "--no-color"
    let o := run e d input (before ++ path :: after)
    ((∃ n, o.ending = .ok (some n)) ∨ ∃ code, o.ending = .error (.exit code)) ∧ o.errorOutput = "" ∧
      (∀ halt, Session.opened d path false (.new true on) = .error halt →
        ∃ n, ToldAs halt n ∧ announcement on n = .ok o.output ∧ o.ending = .error (.exit (.status 1))) ∧
      ∀ s, Session.opened d path false (.new true on) = .ok s →
        ("--tokens" ∈ before ++ after →
          o.output = String.join ((tokens s.source).map fun t => t.render ++ "\n") ∧ o.ending = .ok (some 0)) ∧
        ("--tokens" ∉ before ++ after →
          o.output = String.join ((Program.ofString s.source).errors.map (reportText on path s.source)) ++
            ((Program.ofString s.source).display ++ "\n") ∧
          o.ending = .ok (some (if (Program.ofString s.source).errors = [] then 0 else 1))) := by
  intro on o
  cases hopened : Session.opened d path false (.new true on) with
  | error halt =>
    obtain ⟨n, text, htold, htext, ho⟩ := run_unopened e d input hpath hflags rfl hopened
    have ho : o = _ := ho
    rw [ho]
    refine ⟨.inr ⟨_, rfl⟩, rfl, ?_, fun _ h => nomatch h⟩
    rintro _ ⟨⟩
    exact ⟨n, htold, htext, rfl⟩
  | ok s =>
    have ho : o = _ := run_opened e d input hpath hflags rfl hopened
    by_cases htokens : "--tokens" ∈ before ++ after
    · rw [ho, if_pos htokens]
      refine ⟨.inl ⟨_, rfl⟩, rfl, nofun, ?_⟩
      rintro _ ⟨⟩
      exact ⟨fun _ => ⟨rfl, rfl⟩, fun h => absurd htokens h⟩
    · rw [ho, if_neg htokens]
      refine ⟨.inl ⟨_, rfl⟩, rfl, nofun, ?_⟩
      rintro _ ⟨⟩
      exact ⟨fun h => absurd h htokens, fun _ => ⟨rfl, rfl⟩⟩

/-- a file that is a name alone, and a file that is no text -/
theorem run_over_file_of_name :
    let e : Environment := ⟨none, none, none⟩
    let d : Directory := ⟨[("f", [0x78]), ("g", [0xFF])]⟩
    let shown := run e d "" ["--no-color", "f", "--no-color"]
    let refused := run e d "" ["--tokens", "g"]
    ("f".toList.head? ≠ some '-' ∧ (∀ a ∈ ["--no-color"] ++ ["--no-color"], IsFlag a) ∧
      shown.output =
        "f:1:0: error: unexpected token: Identifier\n  x\n  ^\n" ++
        "Program(statements=[], errors=[\n    At line=1, col=0: unexpected token: Identifier\n])\n" ∧
      shown.ending = .ok (some 1)) ∧
    "g".toList.head? ≠ some '-' ∧ (∀ a ∈ ["--tokens"] ++ [], IsFlag a) ∧
      refused.output =
        "[internal] error: unknown error: 'UnicodeDecodeError: 'utf-8' codec can't decode byte 0xff in position 0: " ++
        "invalid start byte'\n" ∧
      refused.ending = .error (.exit (.status 1)) := by
  intro e d shown refused
  have hcolour : ∀ a ∈ ["--no-color"] ++ ["--no-color"], IsFlag a := by decide
  have htokens : ∀ a ∈ ["--tokens"] ++ [], IsFlag a := by decide
  obtain ⟨-, -, -, hopened⟩ := run_over_file e d "" (by decide : "f".toList.head? ≠ some '-') hcolour
  obtain ⟨houtput, hending⟩ := (hopened ⟨"f", false, "x"⟩ rfl).2 (by decide)
  obtain ⟨-, -, hunopened, -⟩ := run_over_file e d "" (by decide : "g".toList.head? ≠ some '-') htokens
  obtain ⟨_, ⟨⟩, htold, hexit⟩ := hunopened _ rfl
  have hrefused := Except.ok.inj (htold.symm.trans (Notice.announcement_unpainted _))
  refine ⟨⟨by decide, hcolour, houtput.trans ?_, hending.trans ?_⟩, by decide, htokens, hrefused.trans ?_, hexit⟩
  · decide +kernel
  · rw [if_neg (by decide +kernel)]
  · decide +kernel

end CommandLine

end LetFront
