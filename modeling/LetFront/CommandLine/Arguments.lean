/-
Command-line arguments. There is one operand, the file, which may be left out, and there are three flags. A long flag
may be shortened as long as no other begins that way, and short flags may be written together. After two dashes alone
every argument is an operand.

An argument is first classified by itself; one that could mean two flags is refused before anything is done. Then the
arguments are taken from left to right: the first operand is the file, the help flag ends the reading, and a flag with a
value is refused. What is left over is refused at the end, all of it together.
-/
import LetFront.Text.DecimalDigit
import LetFront.Text.Quoted

namespace LetFront.CommandLine

inductive Flag where
  | help | tokens | noColour
  deriving DecidableEq, Repr

/-- every way to write a flag in full -/
def flags : List (String × Flag) :=
  [("-h", .help), ("--help", .help), ("--tokens", .tokens), ("--no-color", .noColour)]

/-- a flag as messages name it -/
def Flag.title : Flag → String
  | .help => "-h/--help"
  | .tokens => "--tokens"
  | .noColour => "--no-color"

/-- what is wrong with the arguments -/
inductive UsageError where
  | ambiguous (argument : String) (candidates : List String)
  | ignoredValue (flag : Flag) (value : String)
  | unrecognized (arguments : List String)
  deriving DecidableEq, Repr

def UsageError.message : UsageError → String
  | .ambiguous argument candidates =>
    "ambiguous option: " ++ argument ++ " could match " ++ String.intercalate ", " candidates
  | .ignoredValue flag value => "argument " ++ flag.title ++ ": ignored explicit argument " ++ Text.quoted value
  | .unrecognized arguments => "unrecognized arguments: " ++ String.intercalate " " arguments

/-- an argument by itself -/
inductive Word where
  | operand (text : String)
  | separator
  /-- a flag; a short one may have others written behind it, and either may have a value -/
  | flag (flag : Flag) (short : Bool) (value : Option (List Char))
  | unknown (text : String)
  deriving DecidableEq, Repr

/-! ## Classifying -/

/-- a text cut at its first equals sign, if it has one -/
def cutAtEquals (cs : List Char) : List Char × Option (List Char) :=
  match cs.dropWhile (· ≠ '=') with
  | [] => (cs, none)
  | _ :: value => (cs.takeWhile (· ≠ '='), some value)

/-- whether a text is a run of decimal digits, and not an empty one -/
def isDigits (cs : List Char) : Bool := !cs.isEmpty && cs.all Text.isDecimalDigit

/-- a text without one line feed at its end -/
def dropFinalNewline (cs : List Char) : List Char :=
  if cs.getLast? = some '\n' then cs.dropLast else cs

/-- whether the text behind a dash is a number; a line feed at its end does not count -/
def isNumber (cs : List Char) : Bool :=
  let cs := dropFinalNewline cs
  match cs.dropWhile Text.isDecimalDigit with
  | [] => isDigits cs
  | '.' :: fraction => isDigits fraction
  | _ => false

/-- the flags that a text is the beginning of, in full -/
def candidates (cs : List Char) : List (String × Flag) := flags.filter fun f => cs.isPrefixOf f.1.toList

/-- an argument with a dash in front that is no flag -/
def otherWord (cs : List Char) : Word :=
  if isNumber (cs.drop 1) || cs.contains ' ' then .operand (String.ofList cs) else .unknown (String.ofList cs)

/-- an argument with a dash in front, by the text behind the dash -/
def dashed (cs : List Char) : Except UsageError Word :=
  let whole := '-' :: cs
  let (name, value) := cutAtEquals whole
  match flags.lookup (String.ofList whole), flags.lookup (String.ofList name), cs with
  | some f, _, _ => .ok (.flag f (cs.head? ≠ some '-') none)
  | none, _, [] => .ok (.operand "-")
  | none, some f, _ => .ok (.flag f (cs.head? ≠ some '-') value)
  | none, none, '-' :: _ =>
    match candidates name with
    | [] => .ok (otherWord whole)
    | [(_, f)] => .ok (.flag f false value)
    | fs => .error (.ambiguous (String.ofList whole) (fs.map Prod.fst))
  | none, none, c :: rest =>
    match flags.lookup (String.ofList ['-', c]) with
    | some f => .ok (.flag f true (some rest))
    | none => .ok (otherWord whole)

/-- an argument in front of the separator -/
def classify (argument : String) : Except UsageError Word :=
  match argument.toList with
  | '-' :: cs => dashed cs
  | _ => .ok (.operand argument)

/-- all arguments; behind the first separator they are operands -/
def classifyAll : List String → Except UsageError (List Word)
  | [] => .ok []
  | a :: as =>
    if a = "--" then .ok (.separator :: as.map .operand)
    else do
      let w ← classify a
      let ws ← classifyAll as
      return w :: ws

/-! ## Taking -/

/-- the short flags written behind a short flag -/
def spellOut (f : Flag) : List Char → Except UsageError (List Flag)
  | [] => .error (.ignoredValue f "")
  | c :: cs =>
    match flags.lookup (String.ofList ['-', c]) with
    | none => .error (.ignoredValue f (String.ofList (c :: cs)))
    | some g => if cs = [] then .ok [f, g] else (f :: ·) <$> spellOut g cs

/-- the flags that one argument gives -/
def flagsOf (f : Flag) (short : Bool) : Option (List Char) → Except UsageError (List Flag)
  | none => .ok [f]
  | some value => if short then spellOut f value else .error (.ignoredValue f (String.ofList value))

/-- what the user asks for -/
structure Request where
  file : Option String
  listTokens : Bool
  noColour : Bool
  deriving DecidableEq, Repr

/-- where the reading of arguments stands: the file may have been the argument just before -/
structure Progress where
  request : Request
  fileJustTaken : Bool
  extras : List String
  deriving DecidableEq, Repr

namespace Progress

def start : Progress := ⟨⟨none, false, false⟩, false, []⟩

def leaveOver (p : Progress) (argument : String) : Progress :=
  { p with extras := p.extras ++ [argument], fileJustTaken := false }

def takeOperand (p : Progress) (text : String) : Progress :=
  if p.request.file.isNone then { p with request := { p.request with file := some text }, fileJustTaken := true }
  else p.leaveOver text

/-- the separator belongs to the file next to it; apart from it, it is left over -/
def takeSeparator (p : Progress) : Progress :=
  if p.request.file.isNone || p.fileJustTaken then { p with fileJustTaken := false } else p.leaveOver "--"

def set (p : Progress) : Flag → Progress
  | .help => p
  | .tokens => { p with request := { p.request with listTokens := true }, fileJustTaken := false }
  | .noColour => { p with request := { p.request with noColour := true }, fileJustTaken := false }

end Progress

/-- what the arguments come to -/
inductive Reading where
  | help
  | request (r : Request)
  deriving DecidableEq, Repr

def take (p : Progress) : List Word → Except UsageError Reading
  | [] => if p.extras = [] then .ok (.request p.request) else .error (.unrecognized p.extras)
  | .operand text :: ws => take (p.takeOperand text) ws
  | .separator :: ws => take p.takeSeparator ws
  | .unknown text :: ws => take (p.leaveOver text) ws
  | .flag f short value :: ws =>
    match flagsOf f short value with
    | .error e => .error e
    | .ok fs => if .help ∈ fs then .ok .help else take (fs.foldl Progress.set p) ws

/-- read the arguments -/
def read (arguments : List String) : Except UsageError Reading := do
  take .start (← classifyAll arguments)

end LetFront.CommandLine
