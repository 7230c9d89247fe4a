/-
A parser used one call at a time. The calls come in any order and go on after one has failed; the stream that a call
leaves is the one that the next call finds.

`turns calls s`: what each of the calls gives back, and the token that is held after it.
-/
import LetFront.Program.Parser

namespace LetFront

inductive Call where
  | peek
  | advance
  | check (kinds : List Kind)
  | expect (kind : Kind)
  | atEnd
  | statement
  | letStatement
  | synchronize
  | program
  deriving DecidableEq, Repr

/-- what a call gives back -/
inductive Answer where
  | token (t : Token)
  | flag (b : Bool)
  | statement (b : Binding)
  | program (p : Program)
  | done
  deriving DecidableEq, Repr

/-- a call as its user sees it: how it ended, and the token that is held after it -/
structure Turn where
  outcome : Except ParseError Answer
  held : Option Token
  deriving Repr

namespace Call

variable {σ : Type} [TokenSource σ]

def action : Call → Parser σ Answer
  | peek => do return .token (← Parser.peek)
  | advance => do return .token (← Parser.advance)
  | check kinds => do return .flag (← Parser.check kinds)
  | expect kind => do return .token (← Parser.expect kind)
  | atEnd => do return .flag (← Parser.atEnd)
  | statement => do return .statement (← Parser.statement)
  | letStatement => do return .statement (← Parser.letStatement)
  | synchronize => do
    Parser.synchronize
    return .done
  | program => do return .program (← Parser.program)

/-- the stream that a call leaves -/
def next (c : Call) (s : TokenStream σ) : TokenStream σ := (c.action.runOn s).2

def turn (c : Call) (s : TokenStream σ) : Turn :=
  ⟨(c.action.runOn s).1.mapError ParseFault.error, (c.next s).lookahead⟩

end Call

variable {σ : Type} [TokenSource σ]

/-- the stream that is left after calls -/
def afterCalls (calls : List Call) (s : TokenStream σ) : TokenStream σ := calls.foldl (fun s c => c.next s) s

def turns : List Call → TokenStream σ → List Turn
  | [], _ => []
  | c :: calls, s => c.turn s :: turns calls (c.next s)

theorem afterCalls_cons (c : Call) (calls : List Call) (s : TokenStream σ) :
    afterCalls (c :: calls) s = afterCalls calls (c.next s) := rfl

end LetFront
