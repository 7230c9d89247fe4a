/-
Lines of a text, where a line may end in any of the ten line breaks of Unicode; a carriage return with its line feed is
one break. A break ends a line, so nothing follows a last break and the empty text has no lines.
-/

namespace LetFront.Text

def isLineBreak (c : Char) : Bool :=
  [0x0A, 0x0B, 0x0C, 0x0D, 0x1C, 0x1D, 0x1E, 0x85, 0x2028, 0x2029].contains c.toNat

/-- put a character in front of the first line -/
def consLine (c : Char) : List (List Char) → List (List Char)
  | [] => [[c]]
  | l :: ls => (c :: l) :: ls

def lines : List Char → List (List Char)
  | [] => []
  | '\r' :: '\n' :: cs => [] :: lines cs
  | c :: cs => if isLineBreak c then [] :: lines cs else consLine c (lines cs)

end LetFront.Text
