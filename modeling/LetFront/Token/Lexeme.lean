/-
The lexemes of the let language. A lexeme is the text of one token with its kind; `Lexeme.first` takes the longest one
at the front of a text.

A number is a run of digits with at most one point. A second point ends it there and then, and what was read so far,
that point included, is illegal. A word is a run of alphanumeric characters and underscores. A character that fits
nowhere is an illegal lexeme by itself.

Main statement: `Lexeme.first_text_ne_nil`, a lexeme is never empty.
-/
import LetFront.Text.Alphanumeric
import LetFront.Token.Vocabulary

namespace LetFront

def isDigit (c : Char) : Bool := c.isDigit

def isWordChar (c : Char) : Bool := Text.isAlphanumeric c || c = '_'

structure Lexeme where
  kind : Kind
  text : List Char
  deriving DecidableEq, Repr

namespace Lexeme

/-- put a character in front of a lexeme -/
def cons (c : Char) (x : Lexeme) : Lexeme := ⟨x.kind, c :: x.text⟩

/-- the number at the front of a text, the rest of one if a point was seen; empty where there is no digit or point -/
def number (pointSeen : Bool) : List Char → Lexeme
  | [] => ⟨if pointSeen then .float else .int, []⟩
  | c :: cs =>
    if isDigit c then cons c (number pointSeen cs)
    else if c = '.' then (if pointSeen then ⟨.illegal, [c]⟩ else cons c (number true cs))
    else ⟨if pointSeen then .float else .int, []⟩

/-- the word at the front of a text; where there is none, the one character that stands there, or NUL at the end -/
def word (cs : List Char) : Lexeme :=
  match cs.takeWhile isWordChar with
  | [] => ⟨.illegal, [cs.headD '\x00']⟩
  | text => ⟨wordKind (String.ofList text), text⟩

/-- the lexeme at the front of `c :: cs` -/
def first (c : Char) (cs : List Char) : Lexeme :=
  match comparisons.lookup c with
  | some (single, double) => if cs.head? = some '=' then ⟨double, [c, '=']⟩ else ⟨single, [c]⟩
  | none =>
    match symbols.lookup c with
    | some kind => ⟨kind, [c]⟩
    | none => if isDigit c || c = '.' then number false (c :: cs) else word (c :: cs)

theorem word_text_ne_nil (cs : List Char) : (word cs).text ≠ [] := by
  unfold word
  split
  · simp
  · assumption

theorem number_text_ne_nil (c : Char) (cs : List Char) (h : (isDigit c || c = '.') = true) :
    (number false (c :: cs)).text ≠ [] := by
  simp only [Bool.or_eq_true, decide_eq_true_eq] at h
  unfold number
  split
  · simp [cons]
  · simp_all [cons]

theorem first_text_ne_nil (c : Char) (cs : List Char) : (first c cs).text ≠ [] := by
  unfold first
  split
  · split <;> simp
  · split
    · simp
    · split
      · exact number_text_ne_nil c cs (by assumption)
      · exact word_text_ne_nil _

end Lexeme

end LetFront
