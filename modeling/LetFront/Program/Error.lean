/-
Errors in a program. `ParseError` is what the user is told: a message, with the location of the token to blame if there
is one. `ParseFault` is what a parser runs into, and says its message and its location; a fault without a token to blame
means that the input ran out.
-/
import LetFront.Token.Basic

namespace LetFront

structure ParseError where
  message : String
  location : Option Location
  deriving DecidableEq, Repr

/-- an error in one line -/
def ParseError.render (e : ParseError) : String :=
  match e.location with
  | none => e.message
  | some l => s!"At line={l.line}, col={l.column}: " ++ e.message

inductive ParseFault where
  | endOfInput
  | unexpected (found : Token)
  | mismatch (wanted : Kind) (found : Token)
  deriving DecidableEq, Repr

namespace ParseFault

def message : ParseFault → String
  | endOfInput => "unexpected end of input"
  | unexpected found => "unexpected token: " ++ found.kind.name
  | mismatch wanted found => "expected a '" ++ wanted.name ++ "' token but got '" ++ found.kind.name ++ "'"

/-- the token to blame -/
def blamed? : ParseFault → Option Token
  | endOfInput => none
  | unexpected found => some found
  | mismatch _ found => some found

def error (f : ParseFault) : ParseError := ⟨f.message, f.blamed?.map Token.location⟩

end ParseFault

end LetFront
