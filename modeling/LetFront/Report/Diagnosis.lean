/-
Pointing at a part of a line. The line is shown with a margin of two spaces and the part painted; under it stand a caret
and tildes, one sign for every character of the part and at least the caret.

The number of spaces in front of the caret, and that of the tildes, must fit 64 bits, or pointing fails. The length of a
text that there can be fits, so a number up to the length `room` of a text at hand is never too large.

A parse error is pointed at in its source: on its line, from its column to the end of the word there. The lines of a
source are counted at every line break here, and a position in front of the first line or column fails.
-/
import LetFront.Report.Failure
import LetFront.Report.Paint
import LetFront.Text.Blank
import LetFront.Text.Lines

namespace LetFront

/-- `c` as often as `n` says -/
def repeated (c : Char) (n : Nat) : String := String.ofList (List.replicate n c)

/-- a line with the part from `start` to `stop` pointed at; no sign stands there a negative number of times -/
def underlined (on : Bool) (line : List Char) (start stop : Int) : String :=
  let stop := max stop (start + 1)
  "  " ++ String.ofList (Text.takeTo line start) ++ alarm on (String.ofList (Text.slice line start stop)) ++
    String.ofList (Text.dropTo line stop) ++ "\n" ++
    "  " ++ repeated ' ' start.toNat ++ alarm on ("^" ++ repeated '~' (stop - start - 1).toNat)

/-- whether a sign may be repeated `n` times -/
def isCount (room : Nat) (n : Int) : Bool := Text.isPosition n || 0 ≤ n && n ≤ room

/-- point at the part of a line from `start` to `stop` -/
def diagnose (on : Bool) (room : Nat) (line : List Char) (start stop : Int) : Except Failure String :=
  if isCount room start && isCount room (max stop (start + 1) - start - 1) then .ok (underlined on line start stop)
  else .error .hugeCount

/-- the end of the word whose first character stands in `column`; the next column must not be in front of the line -/
def wordEnd (line : List Char) (column : Int) : Except Text.PositionFault Int :=
  let next := column + 1
  if next < -line.length then .error (Text.faultAt next)
  else
    let ahead := if next < 0 then line.drop (line.length + next).toNat ++ line else line.drop next.toNat
    .ok (next + (ahead.takeWhile (!Text.isBlank ·)).length)

/-- the place of a parse error in its source, pointed at; nothing if the source has no such line -/
def pointAt (on : Bool) (source : String) (place : Location) : Except Failure (Option String) :=
  let lines := Text.lines source.toList
  if place.line ≤ lines.length then
    match Text.elementAt lines (place.line - 1) with
    | .error fault => .error (.noLine fault)
    | .ok line =>
      match wordEnd line place.column with
      | .error fault => .error (.noColumn fault)
      | .ok stop => some <$> diagnose on source.length line place.column stop
  else .ok none

end LetFront
