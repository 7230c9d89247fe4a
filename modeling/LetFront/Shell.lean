/-
The shell. A line is a command if its first word names one, and else a text whose tokens are listed. Blanks at both ends
of a line do not matter for what it asks, but the tokens listed are those of the line as it was typed.

A line that begins with a question mark asks for help, and one that begins with an exclamation mark is never a command.
The shell remembers the last line that asked for something; nothing is ever done again because of it.
-/
import LetFront.Program.Render
import LetFront.Session

namespace LetFront

namespace Shell

inductive Command where
  | nothing
  | listTokens
  | parse (source : String)
  | help
  | endOfInput
  | exit
  deriving DecidableEq, Repr

/-- a character of a command word -/
def isCommandChar (c : Char) : Bool := c.isAlphanum || c = '_'

/-- a stripped line with a question mark at its front spelled out -/
def spellHelp : List Char → List Char
  | '?' :: cs => "help ".toList ++ cs
  | cs => cs

/-- the command that a word names, with what follows it -/
def named (word rest : List Char) : Command :=
  match String.ofList word with
  | "parse" => .parse (String.ofList (Text.trim rest))
  | "help" => .help
  | "EOF" => .endOfInput
  | "exit" => .exit
  | _ => .listTokens

/-- what a line asks for -/
def Command.ofLine (line : String) : Command :=
  match spellHelp (Text.trim line.toList) with
  | [] => .nothing
  | '!' :: _ => .listTokens
  | cs => named (cs.takeWhile isCommandChar) (cs.dropWhile isCommandChar)

/-- what the shell remembers of a line, if anything -/
def remembered? (line : String) : Option String :=
  match spellHelp (Text.trim line.toList) with
  | [] => none
  | '!' :: _ => none
  | cs => some (if String.ofList cs = "EOF" then "" else String.ofList cs)

/-- shown when the shell starts -/
def greeting : String := "letlang :: Python backend\nType '?' or 'help' for more information."

/-- shown in front of every line -/
def prompt : String := ">> "

def helpText : String :=
  "Welcome to the letlang shell!\n\n" ++
  "Every line you type is split into tokens, which are printed back one per line \n" ++
  "along with their line:col location. Try typing 'let x = 5;'.\n\n" ++
  "To see how a line parses instead, prefix it with 'parse', as in \n" ++
  "'parse let x = 5;'. Type 'exit' or press Ctrl-D to leave."

end Shell

structure Shell where
  session : Session
  /-- the last line that asked for something -/
  last : String
  /-- the last line as it was typed -/
  typed : String
  deriving DecidableEq, Repr

namespace Shell

def new (session : Session) : Shell := ⟨session, "", ""⟩

/-- the shell after a line was typed -/
def note (s : Shell) (line : String) : Shell := { s with typed := line, last := (remembered? line).getD s.last }

/-- do what a command asks; the result says whether to leave the shell -/
def obey (s : Shell) : Command → Reporting Bool
  | .nothing => return false
  | .listTokens => do
    let _ ← Reporting.guarded ((s.session.tokens (some s.typed)).forM (Reporting.print ·.render))
    return false
  | .parse source => do
    let _ ← Reporting.guarded do
      let p ← s.session.parse (some source)
      Reporting.print p.display
    return false
  | .help => do
    Reporting.print helpText
    return false
  | .endOfInput => do
    Reporting.print ""
    return true
  | .exit => return true

/-- do what a line asks -/
def answer (s : Shell) (line : String) : Reporting Bool := (s.note line).obey (.ofLine line)

/-- prompt for lines and answer them until one asks to leave; after the last line the input ends -/
def converse (s : Shell) : List String → Reporting Unit
  | [] => do
    Reporting.write prompt
    let _ ← s.answer "EOF"
  | line :: lines => do
    Reporting.write prompt
    if ← s.answer line then return
    (s.note line).converse lines

/-- greet and converse -/
def run (s : Shell) (lines : List String) : Reporting Unit := do
  Reporting.print greeting
  s.converse lines

end Shell

end LetFront
