/-
Reporting to the user. A reporter knows whether an error ends the program and whether to paint, counts the errors and
keeps what was printed. An action on it may halt: by an exit, by the break key, with a notice or with a failure. What
was printed and counted up to there stays.

Parse errors are reported by `report` and never exit. Notices are told by `announce`, after which a fatal reporter exits.
Both count what they are about first; they fail if it cannot be pointed at, and `announce` also if the notice cannot be
worded with its snippets painted. `guarded` runs an action under the care of the reporter: a notice or a break is
announced and the run goes on, an exit goes through untold, and a failure is announced as unknown and goes through.
-/
import LetFront.Report.Diagnosis
import LetFront.Report.Notice

namespace LetFront

inductive ExitCode where
  | none
  | status (n : Int)
  | text (s : String)
  deriving DecidableEq, Repr

/-- what ends an action early -/
inductive Halt where
  | exit (code : ExitCode)
  | interrupt
  | notice (n : Notice)
  | failure (f : Failure)

structure Reporter where
  isFatal : Bool
  painted : Bool
  errors : Nat
  printed : String
  deriving DecidableEq, Repr

/-- a reporter that has not said anything -/
def Reporter.new (isFatal painted : Bool) : Reporter := ⟨isFatal, painted, 0, ""⟩

abbrev Reporting (α : Type) := ExceptT Halt (StateM Reporter) α

namespace Reporting

/-- the outcome of an action and the reporter it leaves -/
def runOn {α : Type} (action : Reporting α) (r : Reporter) : Except Halt α × Reporter := action r

def write (text : String) : Reporting Unit := modify fun r => { r with printed := r.printed ++ text }

/-- write a line -/
def print (text : String) : Reporting Unit := write (text ++ "\n")

def countError : Reporting Unit := modify fun r => { r with errors := r.errors + 1 }

def fail {α : Type} (f : Failure) : Reporting α := throw (.failure f)

/-- the value of a step, or its failure -/
def ofExcept {α : Type} : Except Failure α → Reporting α
  | .ok a => pure a
  | .error f => fail f

theorem runOn_bind {α β : Type} (action : Reporting α) (f : α → Reporting β) (r : Reporter) :
    (action >>= f).runOn r =
      match action.runOn r with
      | (.ok a, r') => (f a).runOn r'
      | (.error halt, r') => (.error halt, r') := by
  change (ExceptT.bind action f) r = _
  simp only [ExceptT.bind, ExceptT.mk, runOn, bind, StateT.bind]
  cases action r with
  | mk o r' => cases o <;> rfl

theorem runOn_tryCatch {α : Type} (action : Reporting α) (f : Halt → Reporting α) (r : Reporter) :
    (tryCatch action f).runOn r =
      match action.runOn r with
      | (.ok a, r') => (.ok a, r')
      | (.error halt, r') => (f halt).runOn r' := by
  change (ExceptT.tryCatch action f) r = _
  simp only [ExceptT.tryCatch, ExceptT.mk, runOn, bind, StateT.bind]
  cases action r with
  | mk o r' => cases o <;> rfl

theorem runOn_pure {α : Type} (a : α) (r : Reporter) : (pure a : Reporting α).runOn r = (.ok a, r) := rfl

theorem runOn_get (r : Reporter) : (get : Reporting Reporter).runOn r = (.ok r, r) := rfl

theorem runOn_print (text : String) (r : Reporter) :
    (print text).runOn r = (.ok (), { r with printed := r.printed ++ (text ++ "\n") }) := rfl

theorem runOn_countError (r : Reporter) : countError.runOn r = (.ok (), { r with errors := r.errors + 1 }) := rfl

theorem runOn_ofExcept_ok {α : Type} (a : α) (r : Reporter) : (ofExcept (.ok a)).runOn r = (.ok a, r) := rfl

theorem runOn_ofExcept_error {α : Type} (f : Failure) (r : Reporter) :
    (ofExcept (.error f) : Reporting α).runOn r = (.error (.failure f), r) := rfl

/-- report a parse error in the source that was read from `path`: say where and what, and point at it -/
def report (path source : String) (e : ParseError) : Reporting Unit := do
  countError
  let on := (← get).painted
  match e.location with
  | none => print (emphasise on (path ++ ": ") ++ alarm on "error: " ++ e.message)
  | some place =>
    print (emphasise on (path ++ ":" ++ place.render ++ ": ") ++ alarm on "error: " ++ e.message)
    match ← ofExcept (pointAt on source place) with
    | none => pure ()
    | some text => print text

/-- a notice as it is told, with its snippets painted -/
def message (n : Notice) : Reporting String := do ofExcept (n.wording (emphasise (← get).painted))

/-- tell a notice, and exit if errors are fatal -/
def announce (n : Notice) : Reporting Unit := do
  countError
  let on := (← get).painted
  let lead := if n.isInternal then alarm on "[internal] " else ""
  print (lead ++ alarm on "error: " ++ (← message n))
  if !n.isInternal && n.subject ≠ "" && n.pointed then
    print (← ofExcept (diagnose on n.subject.length n.subject.toList n.start n.stop))
  if (← get).isFatal then throw (.exit (.status 1))

/-- deal with what ended an action early -/
def absorb : Halt → Reporting Unit
  | .exit code => throw (.exit code)
  | .interrupt => announce .interrupted
  | .notice n => announce n
  | .failure f => do
    announce (.unknown f)
    fail f

/-- run an action under the care of the reporter; there is no result if it ended early and the run goes on -/
def guarded {α : Type} (action : Reporting α) : Reporting (Option α) := do
  try some <$> action catch halt => do
    absorb halt
    return none

theorem guarded_eq {α : Type} (action : Reporting α) :
    guarded action = tryCatch (some <$> action) fun halt => absorb halt >>= fun _ => pure none := by
  funext r
  change (guarded action).runOn r = runOn (tryCatch _ _) r
  unfold guarded
  rw [runOn_bind, runOn_tryCatch, runOn_tryCatch, runOn_bind]
  rcases (some <$> action).runOn r with ⟨halt | _, r'⟩
  · simp only [runOn_bind]
    rcases (absorb halt).runOn r' with ⟨_ | _, _⟩ <;> rfl
  · rfl

end Reporting

end LetFront
