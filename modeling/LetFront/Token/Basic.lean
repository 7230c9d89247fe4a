/-
Tokens and where they stand. A location is a line, counted from one, and a column, counted from zero; it is that of a
token's first character. Only a line feed ends a line here.

Main statement: `Location.past_append`, walking past a text is walking past its parts.
-/
import LetFront.Text.Quoted
import LetFront.Token.Kind

namespace LetFront

structure Location where
  line : Int
  column : Int
  deriving DecidableEq, Repr

namespace Location

/-- where a source begins -/
def start : Location := ⟨1, 0⟩

/-- the location after a character -/
def after (l : Location) (c : Char) : Location :=
  if c = '\n' then ⟨l.line + 1, 0⟩ else ⟨l.line, l.column + 1⟩

/-- the location after a text -/
def past (l : Location) (cs : List Char) : Location := cs.foldl after l

theorem past_append (l : Location) (as bs : List Char) : l.past (as ++ bs) = (l.past as).past bs :=
  List.foldl_append

def render (l : Location) : String := s!"{l.line}:{l.column}"

end Location

structure Token where
  kind : Kind
  literal : String
  location : Location
  deriving DecidableEq, Repr

/-- a token as listings show it -/
def Token.render (t : Token) : String :=
  "Token(" ++ t.kind.name ++ ", " ++ Text.quoted t.literal ++ ", " ++ t.location.render ++ ")"

end LetFront
