/-
The fixed vocabulary of the let language: keywords, the operators that become another operator when an equals sign
follows, and the symbols of one character.
-/
import LetFront.Token.Kind

namespace LetFront

def keywords : List (String × Kind) :=
  [("let", .letWord), ("fn", .functionWord), ("if", .ifWord), ("else", .elseWord), ("return", .returnWord),
   ("true", .trueWord), ("false", .falseWord)]

/-- an operator character, its kind alone and its kind with an equals sign -/
def comparisons : List (Char × Kind × Kind) :=
  [('=', .assign, .equalEqual), ('!', .not, .notEqual), ('>', .greater, .greaterEqual), ('<', .less, .lessEqual)]

def symbols : List (Char × Kind) :=
  [(',', .comma), (';', .semicolon), ('+', .plus), ('-', .subtract), ('*', .multiply), ('/', .divide),
   ('{', .leftBrace), ('}', .rightBrace), ('(', .leftParen), (')', .rightParen)]

/-- the kind of a word: its keyword's, or identifier -/
def wordKind (text : String) : Kind := (keywords.lookup text).getD .identifier

end LetFront
