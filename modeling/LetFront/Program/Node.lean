/-
Syntax trees. A node is an expression, a statement or a whole program; a program holds its statements and the errors
met beside them. What a parser reads today is a `Program`: a list of `Binding`s, whose values are not read yet, and a
list of errors. `Program.node` is its tree.
-/
import LetFront.Program.Error

namespace LetFront

inductive Node where
  /-- stands for an expression that was skipped -/
  | placeholder
  | identifier (token : Token) (value : String)
  | integer (token : Token) (value : Int)
  | float (token : Token) (value : Float)
  | boolean (token : Token) (value : Bool)
  /-- an operator in front of its operand; the token is the operator's -/
  | unary (token : Token) (right : Node)
  /-- an operator between its operands; the token is the operator's -/
  | binary (token : Token) (left right : Node)
  /-- a call; the token is the opening parenthesis -/
  | call (token : Token) (function : Node) (arguments : List Node)
  /-- a let statement; the token is its keyword -/
  | letStatement (token : Token) (name value : Node)
  | program (statements : List Node) (errors : List ParseError)

def Node.isProgram : Node → Bool
  | .program _ _ => true
  | _ => false

/-- whether a program has no errors; nothing for any other node -/
def Node.ok? : Node → Option Bool
  | .program _ errors => some errors.isEmpty
  | _ => none

/-- a let statement as it is read: its keyword and the name it binds -/
structure Binding where
  keyword : Token
  name : Token
  deriving DecidableEq, Repr

/-- a binding as a statement; its value is a placeholder -/
def Binding.node (b : Binding) : Node :=
  .letStatement b.keyword (.identifier b.name b.name.literal) .placeholder

/-- what a parser reads, each list in the order of the source -/
structure Program where
  statements : List Binding
  errors : List ParseError
  deriving DecidableEq, Repr

namespace Program

def empty : Program := ⟨[], []⟩

def ok (p : Program) : Bool := p.errors.isEmpty

def node (p : Program) : Node := .program (p.statements.map Binding.node) p.errors

end Program

end LetFront
