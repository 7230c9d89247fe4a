/-
Equality of trees: the same form with equal parts, tokens and locations included. Numbers with a fraction are compared
as numbers, so the two zeros are equal.
-/
import LetFront.Program.Node

namespace LetFront

mutual

def Node.same : Node → Node → Bool
  | .placeholder, .placeholder => true
  | .identifier t v, .identifier t' v' => t = t' && v = v'
  | .integer t v, .integer t' v' => t = t' && v = v'
  | .float t v, .float t' v' => t = t' && v == v'
  | .boolean t v, .boolean t' v' => t = t' && v = v'
  | .unary t r, .unary t' r' => t = t' && r.same r'
  | .binary t l r, .binary t' l' r' => t = t' && l.same l' && r.same r'
  | .call t f as, .call t' f' as' => t = t' && f.same f' && Node.sameAll as as'
  | .letStatement t n v, .letStatement t' n' v' => t = t' && n.same n' && v.same v'
  | .program ss es, .program ss' es' => Node.sameAll ss ss' && es = es'
  | _, _ => false

def Node.sameAll : List Node → List Node → Bool
  | [], [] => true
  | n :: ns, n' :: ns' => n.same n' && Node.sameAll ns ns'
  | _, _ => false

end

end LetFront
