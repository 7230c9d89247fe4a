/-
Runs of the program. With a file it lists the file's tokens, or reports the file's errors and shows its program; without
one it is a shell over the standard input. Everything happens under the care of a fatal reporter, so a problem with the
file ends the run with status one.

A run ends with a status, or with none if a break was survived, unless it halts; help and refused arguments halt it.
-/
import LetFront.CommandLine.Arguments
import LetFront.Shell

namespace LetFront.CommandLine

def usage : String := "usage: letlang [-h] [--tokens] [--no-color] [file]\n"

def helpText : String :=
  usage ++ "\n" ++
  "positional arguments:\n" ++
  "  file        file to parse (if empty, goes to command-line mode)\n\n" ++
  "options:\n" ++
  "  -h, --help  show this help message and exit\n" ++
  "  --tokens    print the file's tokens instead of its syntax tree\n" ++
  "  --no-color  don't color error messages\n"

def refusal (e : UsageError) : String := usage ++ "letlang: error: " ++ e.message ++ "\n"

/-- list the tokens of a file, or report its errors and show its program -/
def showFile (d : Directory) (path : String) (listTokens : Bool) : Reporting Int := do
  let s ← Session.start d path false
  if listTokens then
    (s.tokens none).forM (Reporting.print ·.render)
    return 0
  else
    let p ← s.parse none
    Reporting.print p.display
    return if p.ok then 0 else 1

/-- open the session of a shell -/
def openShell (d : Directory) : Reporting Shell := Shell.new <$> Session.start d Session.typedName true

/-- do what is asked for, with the lines of the standard input -/
def perform (d : Directory) (input : List String) (r : Request) : Reporting (Option Int) :=
  Reporting.guarded do
    match r.file with
    | some path => showFile d path r.listTokens
    | none =>
      (← openShell d).run input
      return 0

/-- the reporter that a run starts with -/
def reporterFor (e : Environment) (r : Request) : Reporter := .new true (e.allowsColour && !r.noColour)

structure Outcome where
  ending : Except Halt (Option Int)
  output : String
  errorOutput : String

/-- the run of the program for some arguments and a standard input -/
def run (e : Environment) (d : Directory) (input : String) (arguments : List String) : Outcome :=
  match read arguments with
  | .error u => ⟨.error (.exit (.status 2)), "", refusal u⟩
  | .ok .help => ⟨.error (.exit (.status 0)), helpText, ""⟩
  | .ok (.request r) =>
    let lines := (Text.inputLines (Text.unifyNewlines input.toList)).map String.ofList
    let (ending, reporter) := (perform d lines r).runOn (reporterFor e r)
    ⟨ending, reporter.printed, ""⟩

/-- how a program exits that ends so; a failure or a break is no exit -/
def exitCode? : Except Halt (Option Int) → Option ExitCode
  | .ok (some n) => some (.status n)
  | .ok none => some .none
  | .error (.exit code) => some code
  | .error _ => none

end LetFront.CommandLine
