/-
No line has to do with those before it. What the shell remembers of earlier lines, and what the reporter has counted and
printed for them, changes nothing about the answer to the next line: two shells of the same name and the same painting
give the same answer, whatever they have answered before, and it is the answer of a new shell.

The name of a session only shows in the reports of errors, and all sessions over what is typed have the same name.

Main statements: `reply_congr`, what a line tells does not depend on what the shell remembers; `after_told`, what a run of
lines leaves behind; `answer_independent`, two shells with any lines behind them.
-/
import LetFront.Proofs.Shell.Dispatch

namespace LetFront.Shell

/-- the shell and the reporter after lines were answered, one after the other, also behind one that asks to leave -/
def after (s : Shell) (r : Reporter) : List String → Shell × Reporter
  | [] => (s, r)
  | line :: lines => (s.note line).after ((s.answer line).runOn r).2 lines

/-- the errors in the argument of a parse command; no other line has any -/
def faults (line : String) : ℕ :=
  if firstWord line = "parse" then (Program.ofString (argument line)).errors.length else 0

variable (on : Bool)

/-! ## One line -/

/-- what a line tells does not depend on what the shell remembers -/
theorem reply_congr {s s' : Shell} (hname : s.session.path = s'.session.path) (line : String) (c : Command) :
    c.reply on (s.note line) = c.reply on (s'.note line) := by
  cases c with
  | parse source => simp only [Command.reply, note, hname]
  | nothing | listTokens | help | endOfInput | exit => rfl

theorem errors_reply (s : Shell) (line : String) : ((Command.ofLine line).reply on s).errors = faults line := by
  have hasks := asks_ofLine line
  generalize Command.ofLine line = c at hasks ⊢
  unfold faults
  cases hasks with
  | nothing h => simp [Command.reply, firstWord_of_nil h]
  | question h => simp [Command.reply, firstWord_of_mark h]
  | listTokens _ _ hword =>
    have hparse : firstWord line ≠ "parse" := fun h => hword (h ▸ by decide)
    simp [Command.reply, hparse]
  | parse h | help h | endOfInput h | exit h => simp [Command.reply, h]

theorem exists_tells_answer (s : Shell) (line : String) :
    ∃ stop text, Tells on (s.answer line) stop text (faults line) := by
  have hanswer := tells_answer on s line
  rw [errors_reply] at hanswer
  exact ⟨_, _, hanswer⟩

/-- an empty line does nothing -/
theorem ofLine_of_nil {line : String} (h : stripped line = []) : Command.ofLine line = .nothing := by
  unfold stripped at h
  unfold Command.ofLine
  rw [h]
  rfl

/-! ## Runs of lines -/

/-- **What lines leave behind.** The shell is over the same session, and the reporter has counted the errors of the parse
commands. -/
theorem after_told (s : Shell) (r : Reporter) (lines : List String) :
    (s.after r lines).1.session = s.session ∧ ∃ text, (s.after r lines).2 = r.told text (lines.map faults).sum := by
  induction lines generalizing s r with
  | nil => exact ⟨rfl, "", r.told_nothing.symm⟩
  | cons line lines ih =>
    obtain ⟨stop, said, hline⟩ := exists_tells_answer r.painted s line
    obtain ⟨hsession, text, hafter⟩ := ih (s.note line) ((s.answer line).runOn r).2
    refine ⟨hsession, said ++ text, ?_⟩
    calc (s.after r (line :: lines)).2
        = ((s.answer line).runOn r).2.told text (lines.map faults).sum := hafter
      _ = r.told (said ++ text) (faults line + (lines.map faults).sum) := by rw [hline rfl, r.told_told]
      _ = r.told (said ++ text) ((line :: lines).map faults).sum := by rw [List.map_cons, List.sum_cons]

/-- **Lines are independent.** Two shells of the same name and painting have answered any lines. To the next line both
give the same answer, print the same and count the same errors, and it is the answer of a new shell; to an empty line they
do nothing at all. The errors that were counted are those of the parse commands. -/
theorem answer_independent {s s' : Shell} {r r' : Reporter} (hname : s.session.path = s'.session.path)
    (hpainted : r.painted = r'.painted) (lines lines' : List String) (line : String) :
    ∃ stop text n,
      ((s.after r lines).1.answer line).runOn (s.after r lines).2 = (.ok stop, (s.after r lines).2.told text n) ∧
      ((s'.after r' lines').1.answer line).runOn (s'.after r' lines').2 =
        (.ok stop, (s'.after r' lines').2.told text n) ∧
      ((new s.session).answer line).runOn (.new r.isFatal r.painted) =
        (.ok stop, (Reporter.new r.isFatal r.painted).told text n) ∧
      (stripped line = [] → stop = false ∧ text = "" ∧ n = 0) ∧
      (s.after r lines).2.errors = r.errors + (lines.map faults).sum := by
  obtain ⟨hsession, told, hafter⟩ := after_told s r lines
  obtain ⟨hsession', told', hafter'⟩ := after_told s' r' lines'
  have hname' : (s'.after r' lines').1.session.path = (s.after r lines).1.session.path := by
    rw [hsession, hsession', hname]
  have hkeeps : (s.after r lines).2.painted = r.painted := by
    rw [hafter]
    rfl
  have hkeeps' : (s'.after r' lines').2.painted = r.painted := by
    rw [hafter', hpainted]
    rfl
  refine ⟨_, _, _, tells_answer r.painted _ line hkeeps, ?_, ?_, ?_, ?_⟩
  · rw [← reply_congr r.painted hname']
    exact tells_answer r.painted _ line hkeeps'
  · rw [← reply_congr r.painted (s := new s.session) (congrArg Session.path hsession.symm)]
    exact tells_answer r.painted _ line rfl
  · intro h
    rw [ofLine_of_nil h]
    exact ⟨rfl, rfl, rfl⟩
  · rw [hafter]
    rfl

/-- an empty line after a parse command and two other commands -/
theorem answer_independent_of_parse :
    let s := new ⟨Session.typedName, true, ""⟩
    let r := Reporter.new false false
    let lines := ["exit", "parse x", "?"]
    (s.after r lines).2.errors = 1 ∧
      ((s.after r lines).1.answer " \n").runOn (s.after r lines).2 = (.ok false, (s.after r lines).2) ∧
      (s.answer " \n").runOn r = (.ok false, r) := by
  intro s r lines
  obtain ⟨stop, text, n, hrun, -, hnew, hempty, herrors⟩ := @answer_independent s s r r rfl rfl lines [] " \n"
  obtain ⟨rfl, rfl, rfl⟩ := hempty (by decide)
  rw [Reporter.told_nothing] at hrun hnew
  refine ⟨?_, hrun, hnew⟩
  rw [herrors]
  decide +kernel

end LetFront.Shell
