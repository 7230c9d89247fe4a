/-
The command line. This is the only module that acts: it reads the arguments, the environment, the file and the standard
input, and prints. What there is to do and to print is decided in the modules that it imports.
-/
import LetFront.CommandLine.Run

namespace LetFront.CommandLine

/-- the directory that holds the one file a run may open -/
def directoryOf (path : String) : IO Directory := do
  try
    let bytes ← IO.FS.readBinFile path
    return ⟨[(path, bytes.toList)]⟩
  catch _ => return ⟨[]⟩

/-- run an action, print what it prints, and go on with the reporter it leaves -/
def act {α : Type} (action : Reporting α) (r : Reporter) : IO (Except Halt α × Reporter) := do
  let (outcome, after) := action.runOn { r with printed := "" }
  IO.print after.printed
  (← IO.getStdout).flush
  return (outcome, after)

/-- answer the lines of the standard input as they come -/
partial def converse (input : IO.FS.Stream) (s : Shell) (r : Reporter) : IO (Except Halt Unit) := do
  let (_, r) ← act (Reporting.write Shell.prompt) r
  let line ← input.getLine
  let typed := if line.isEmpty then "EOF"
    else ((Text.inputLines (Text.unifyNewlines line.toList)).map String.ofList).headD ""
  match ← act (s.answer typed) r with
  | (.ok false, r) => converse input (s.note typed) r
  | (.ok true, _) => return .ok ()
  | (.error halt, _) => return .error halt

/-- the status that the system is told -/
def statusOf (ending : Except Halt (Option Int)) : IO UInt32 := do
  match exitCode? ending with
  | some .none => return 0
  | some (.status n) => return (n % 256).toNat.toUInt32
  | some (.text s) =>
    IO.eprintln s
    return 1
  | none => return 1

/-- run the program; the result is its status -/
def execute (arguments : List String) : IO UInt32 := do
  let environment : Environment :=
    ⟨← IO.getEnv "NO_COLOR", ← IO.getEnv "FORCE_COLOR", ← IO.getEnv "ANSI_COLORS_DISABLED"⟩
  match read arguments with
  | .error u =>
    IO.eprint (refusal u)
    return 2
  | .ok .help =>
    IO.print helpText
    return 0
  | .ok (.request r) =>
    let reporter := reporterFor environment r
    match r.file with
    | some path =>
      let (ending, _) ← act (perform (← directoryOf path) [] r) reporter
      statusOf ending
    | none =>
      match ← act (openShell ⟨[]⟩) reporter with
      | (.ok shell, reporter) =>
        let (_, reporter) ← act (Reporting.print Shell.greeting) reporter
        match ← converse (← IO.getStdin) shell reporter with
        | .ok () => statusOf (.ok (some 0))
        | .error halt => statusOf (.error halt)
      | (.error halt, _) => statusOf (.error halt)

end LetFront.CommandLine

def main (arguments : List String) : IO UInt32 := LetFront.CommandLine.execute arguments
