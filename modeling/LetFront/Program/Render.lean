/-
Trees as text. `Node.render` writes a tree the way the language writes it, with parentheses around every operation.
`Node.display` shows a tree for reading: a program over several lines, its statements and its errors indented by four
more spaces than itself, and any other node by the name of its form around its text.
-/
import LetFront.Program.Node

namespace LetFront

mutual

/-- a tree as program text -/
def Node.render : Node → String
  | .placeholder => "..."
  | .identifier _ value => value
  | .integer token _ => token.literal
  | .float token _ => token.literal
  | .boolean token _ => token.literal
  | .unary token right => "(" ++ token.literal ++ right.render ++ ")"
  | .binary token left right => "(" ++ left.render ++ " " ++ token.literal ++ " " ++ right.render ++ ")"
  | .call _ function arguments => function.render ++ "(" ++ String.intercalate ", " (Node.renderAll arguments) ++ ")"
  | .letStatement token name value => token.literal ++ " " ++ name.render ++ " = " ++ value.render ++ ";"
  | .program statements _ => String.intercalate "\n" (Node.renderAll statements)

def Node.renderAll : List Node → List String
  | [] => []
  | n :: ns => n.render :: Node.renderAll ns

end

theorem Node.renderAll_eq_map (ns : List Node) : Node.renderAll ns = ns.map Node.render := by
  induction ns with
  | nil => rfl
  | cons n ns ih => simp [Node.renderAll, ih]

/-- the name of a node's form -/
def Node.form : Node → String
  | .placeholder => "Placeholder"
  | .identifier _ _ => "Identifier"
  | .integer _ _ => "IntegerLiteral"
  | .float _ _ => "FloatLiteral"
  | .boolean _ _ => "BooleanLiteral"
  | .unary _ _ => "PrefixExpression"
  | .binary _ _ _ => "InfixExpression"
  | .call _ _ _ => "CallExpression"
  | .letStatement _ _ _ => "LetStatement"
  | .program _ _ => "Program"

/-- the indentation of a level; there is none in front of level one -/
def indentation (level : Int) : String := String.ofList (List.replicate (4 * level.toNat) ' ')

/-- a list between brackets: nothing, or its items on lines of their own and the closing bracket on the next -/
def block (pad : String) : List String → String
  | [] => ""
  | items => String.intercalate "," (items.map ("\n" ++ ·)) ++ "\n" ++ pad

mutual

/-- a tree for reading, at a level of indentation -/
def Node.display (level : Int) : Node → String
  | .program statements errors =>
    let pad := indentation level
    pad ++ "Program(statements=[" ++ block pad (Node.displayAll (level + 1) statements) ++
      "], errors=[" ++ block pad (errors.map (pad ++ "    " ++ ·.render)) ++ "])"
  | n => indentation level ++ n.form ++ "(" ++ n.render ++ ")"

def Node.displayAll (level : Int) : List Node → List String
  | [] => []
  | n :: ns => n.display level :: Node.displayAll level ns

end

theorem Node.displayAll_eq_map (level : Int) (ns : List Node) :
    Node.displayAll level ns = ns.map (Node.display level) := by
  induction ns with
  | nil => rfl
  | cons n ns ih => simp [Node.displayAll, ih]

/-- a statement as program text -/
def Binding.render (b : Binding) : String := b.node.render

/-- a program as program text, a statement a line -/
def Program.render (p : Program) : String := p.node.render

/-- a program for reading -/
def Program.display (p : Program) : String := p.node.display 0

end LetFront
