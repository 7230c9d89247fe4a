/-
One spelling of the line end. Files and the standard input may end a line in LF, CR LF or CR; what is read from them
has LF only. `inputLines` cuts such a text where its lines end; a last line without an end counts.
-/

namespace LetFront.Text

/-- every CR LF and every lone CR becomes LF -/
def unifyNewlines : List Char → List Char
  | [] => []
  | '\r' :: '\n' :: cs => '\n' :: unifyNewlines cs
  | c :: cs => (if c = '\r' then '\n' else c) :: unifyNewlines cs

/-- the lines of a text whose lines end in LF, without their ends -/
def inputLines : List Char → List (List Char)
  | [] => []
  | c :: cs =>
    if c = '\n' then [] :: inputLines cs
    else
      match inputLines cs with
      | [] => [[c]]
      | l :: ls => (c :: l) :: ls

end LetFront.Text
