/-
A scanner used one call at a time. The calls come in any order, and the scanner that a call leaves is the one that the
next call finds. A number or a word may be asked for anywhere, whatever stands there; its location is what the caller
says.

`Call.answer` and `Call.next`: what a call gives back, and the scanner that it leaves.
-/
import LetFront.Token.Scanner

namespace LetFront.Scanner

inductive Call where
  /-- the next token, as an iterator gives it -/
  | pull
  /-- the next token, or the one for the end again -/
  | read
  /-- every token that is left, as an iterator gives them -/
  | drain
  | current
  | following
  | skipChar
  | skipSpace
  | skipLine
  | atEnd
  | location
  | readNumber (start : Location)
  | readWord (start : Location)
  deriving DecidableEq, Repr

/-- what a call gives back -/
inductive Answer where
  | token (t : Token)
  /-- an iterator has nothing left -/
  | dry
  | tokens (ts : List Token)
  | char (c : Char)
  | flag (b : Bool)
  | place (l : Location)
  | done
  deriving DecidableEq, Repr

/-- the tokens in an answer -/
def Answer.given : Answer → List Token
  | token t => [t]
  | tokens ts => ts
  | _ => []

namespace Call

def run (s : Scanner) : Call → Answer × Scanner
  | pull =>
    match s.next? with
    | none => (.dry, s)
    | some (t, s') => (.token t, s')
  | read => (.token s.read.1, s.read.2)
  | drain => (.tokens (TokenSource.drain s).1, (TokenSource.drain s).2)
  | current => (.char s.current, s)
  | following => (.char s.following, s)
  | skipChar => (.done, s.skipChar)
  | skipSpace => (.done, s.skipSpace)
  | skipLine => (.done, s.skipLine)
  | atEnd => (.flag s.atEnd, s)
  | location => (.place s.location, s)
  | readNumber start => (.token { s.readNumber.1 with location := start }, s.readNumber.2)
  | readWord start => (.token { s.readWord.1 with location := start }, s.readWord.2)

def answer (c : Call) (s : Scanner) : Answer := (c.run s).1

/-- the scanner that a call leaves -/
def next (c : Call) (s : Scanner) : Scanner := (c.run s).2

end Call

/-- the scanner that is left after calls -/
def afterCalls (calls : List Call) (s : Scanner) : Scanner := calls.foldl (fun s c => c.next s) s

theorem afterCalls_cons (c : Call) (calls : List Call) (s : Scanner) :
    afterCalls (c :: calls) s = afterCalls calls (c.next s) := rfl

end LetFront.Scanner
