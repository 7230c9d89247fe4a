/-
The kinds of token. They are a closed set; the name of a kind is what messages and listings show.

Main statement: `Kind.ofName?_name`, a kind is determined by its name.
-/

namespace LetFront

inductive Kind where
  | illegal : Kind
  | endOfInput : Kind
  | identifier : Kind
  | int : Kind
  | float : Kind
  | assign : Kind
  | plus : Kind
  | subtract : Kind
  | divide : Kind
  | multiply : Kind
  | greater : Kind
  | greaterEqual : Kind
  | less : Kind
  | lessEqual : Kind
  | not : Kind
  | equalEqual : Kind
  | notEqual : Kind
  | comma : Kind
  | semicolon : Kind
  | leftParen : Kind
  | rightParen : Kind
  | leftBrace : Kind
  | rightBrace : Kind
  | functionWord : Kind
  | letWord : Kind
  | trueWord : Kind
  | falseWord : Kind
  | ifWord : Kind
  | elseWord : Kind
  | returnWord : Kind
  deriving DecidableEq, Repr

namespace Kind

/-- every kind, in the order of listings -/
def all : List Kind :=
  [illegal, endOfInput, identifier, int, float, assign, plus, subtract, divide, multiply, greater, greaterEqual, less,
   lessEqual, not, equalEqual, notEqual, comma, semicolon, leftParen, rightParen, leftBrace, rightBrace, functionWord,
   letWord, trueWord, falseWord, ifWord, elseWord, returnWord]

def name : Kind → String
  | illegal => "Illegal"
  | endOfInput => "EOF"
  | identifier => "Identifier"
  | int => "Int"
  | float => "Float"
  | assign => "Assign"
  | plus => "Plus"
  | subtract => "Subtract"
  | divide => "Divide"
  | multiply => "Multiply"
  | greater => "Greater"
  | greaterEqual => "GreaterEqual"
  | less => "Less"
  | lessEqual => "LessEqual"
  | not => "Not"
  | equalEqual => "EqualEqual"
  | notEqual => "NotEqual"
  | comma => "Comma"
  | semicolon => "SemiColon"
  | leftParen => "LParen"
  | rightParen => "RParen"
  | leftBrace => "LBrace"
  | rightBrace => "RBrace"
  | functionWord => "Function"
  | letWord => "Let"
  | trueWord => "True"
  | falseWord => "False"
  | ifWord => "If"
  | elseWord => "Else"
  | returnWord => "Return"

/-- the kind that has a name -/
def ofName? (s : String) : Option Kind := all.find? fun k => k.name == s

theorem ofName?_name (k : Kind) : ofName? k.name = some k := by cases k <;> decide

end Kind

end LetFront
