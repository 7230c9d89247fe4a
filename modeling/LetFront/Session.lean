/-
Sessions. A session reads programs from a file or from what is typed, and reports their errors. Nothing is carried from
one source to the next.

The name `<in>` stands for what is typed: a session over it is a command-line session and has no text of its own.
-/
import LetFront.Program.Parser
import LetFront.Report.Reporter
import LetFront.Text.Newline

namespace LetFront

/-- the files that can be opened, by name -/
structure Directory where
  files : List (String × List UInt8)

/-- the text of a file, its lines ended in one way -/
def Directory.read (d : Directory) (path : String) : Except Halt String :=
  if path.toList.contains '\x00' then .error (.failure .nulInPath)
  else
    match d.files.lookup path with
    | none => .error (.notice (.unopened path))
    | some bytes =>
      match Text.Utf8.decode bytes with
      | .error fault => .error (.failure (.undecodable fault))
      | .ok cs => .ok (String.ofList (Text.unifyNewlines cs))

structure Session where
  path : String
  isCommandLine : Bool
  source : String
  deriving DecidableEq, Repr

namespace Session

/-- the name that stands for what is typed -/
def typedName : String := "<in>"

/-- open a session; in a command-line session no error is fatal -/
def start (d : Directory) (path : String) (isCommandLine : Bool) : Reporting Session := do
  if isCommandLine then modify fun r => { r with isFatal := false }
  if path ≠ typedName then
    match d.read path with
    | .ok source => return ⟨path, isCommandLine, source⟩
    | .error halt => throw halt
  else if isCommandLine then return ⟨path, true, ""⟩
  else throw (.notice .reserved)

/-- read a program, the session's own if no other is given, and report its errors in order -/
def parse (s : Session) (source? : Option String) : Reporting Program := do
  let source := source?.getD s.source
  let p := Program.ofString source
  p.errors.forM (Reporting.report s.path source)
  return p

/-- the tokens of a source, the session's own if no other is given -/
def tokens (s : Session) (source? : Option String) : List Token := LetFront.tokens (source?.getD s.source)

end Session

end LetFront
