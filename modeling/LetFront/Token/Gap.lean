/-
What stands between lexemes: white space, and comments from two slashes to the end of the line. `gap` is the longest
stretch of them at the front of a text.
-/

namespace LetFront

def isSpace (c : Char) : Bool := c = ' ' || c = '\t' || c = '\n' || c = '\r' || c = '\x0c'

/-- whether a comment is open -/
inductive Zone where
  | code : Zone
  | comment : Zone
  deriving DecidableEq, Repr

def gapFrom : Zone → List Char → List Char
  | _, [] => []
  | .comment, c :: cs => c :: gapFrom (if c = '\n' then .code else .comment) cs
  | .code, c :: cs =>
    if isSpace c then c :: gapFrom .code cs
    else if c = '/' ∧ cs.head? = some '/' then c :: gapFrom .comment cs
    else []

def gap (cs : List Char) : List Char := gapFrom .code cs

end LetFront
