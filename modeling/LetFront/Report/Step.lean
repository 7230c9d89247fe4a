/-
Uses of a reporter, one after the other. A step is one use with the texts that are given to it; it may give back a text.
What a step does stands for itself: it fails or exits, and the next step goes on with the reporter that it leaves.

`transcript actions r`: what is seen of actions, each with what it printed itself.
-/
import LetFront.Report.Reporter

namespace LetFront

/-- what a notice is made from -/
structure NoticeSource where
  members : Text.Template.Members
  template : String
  snippets : List String
  start : Int
  stop : Int
  pointed : Bool
  isInternal : Bool

def NoticeSource.notice (n : NoticeSource) : Except Failure Notice :=
  Notice.make n.members n.template n.snippets n.start n.stop n.pointed n.isInternal

/-- what may be raised under the care of a reporter -/
inductive Raise where
  | notice (n : NoticeSource)
  | exit (code : ExitCode)
  | interrupt
  | failure (f : Failure)

inductive Step where
  | paint (colour : Option Colour) (attributes : List Attribute) (text : String)
  | message (n : NoticeSource)
  | diagnose (line : String) (start stop : Int)
  | report (path source : String) (e : ParseError)
  | announce (n : NoticeSource)
  /-- under the care of the reporter, write a text and then raise something or nothing -/
  | guarded (text : String) (raise : Option Raise)

def Raise.action : Raise → Reporting Unit
  | notice n => do throw (.notice (← Reporting.ofExcept n.notice))
  | exit code => throw (.exit code)
  | interrupt => throw .interrupt
  | failure f => Reporting.fail f

namespace Step

/-- write a text and then raise something or nothing -/
def body (text : String) : Option Raise → Reporting Unit
  | none => Reporting.write text
  | some raise => do
    Reporting.write text
    raise.action

def action : Step → Reporting (Option String)
  | paint colour attributes text => do return some (LetFront.paint (← get).painted colour attributes text)
  | message n => do return some (← Reporting.message (← Reporting.ofExcept n.notice))
  | diagnose line start stop => do
    return some (← Reporting.ofExcept (LetFront.diagnose (← get).painted line.length line.toList start stop))
  | report path source e => do
    Reporting.report path source e
    return none
  | announce n => do
    Reporting.announce (← Reporting.ofExcept n.notice)
    return none
  | guarded text raise => do
    let _ ← Reporting.guarded (body text raise)
    return none

end Step

/-! ## The texts that are given to a step -/

def NoticeSource.texts (n : NoticeSource) : List String := n.template :: n.snippets

def Raise.texts : Raise → List String
  | notice n => n.texts
  | exit (.text s) => [s]
  | exit _ => []
  | interrupt => []
  | failure f => [f.label, f.text]

def Step.texts : Step → List String
  | paint _ _ text => [text]
  | message n => n.texts
  | diagnose line _ _ => [line]
  | report path source e => [path, source, e.message]
  | announce n => n.texts
  | guarded text raise => text :: raise.elim [] Raise.texts

/-! ## Runs -/

/-- what is seen of an action: how it ended, what it printed, and the errors that were counted up to its end -/
structure Record (α : Type) where
  outcome : Except Halt α
  printed : String
  errors : Nat

/-- what is seen of actions, one after the other -/
def transcript {α : Type} : List (Reporting α) → Reporter → List (Record α)
  | [], _ => []
  | action :: actions, r =>
    let (outcome, after) := action.runOn { r with printed := "" }
    ⟨outcome, after.printed, after.errors⟩ :: transcript actions after

theorem transcript_cons {α : Type} (action : Reporting α) (actions : List (Reporting α)) (r : Reporter) :
    transcript (action :: actions) r =
      ⟨(action.runOn { r with printed := "" }).1, (action.runOn { r with printed := "" }).2.printed,
        (action.runOn { r with printed := "" }).2.errors⟩ ::
        transcript actions (action.runOn { r with printed := "" }).2 := rfl

end LetFront
