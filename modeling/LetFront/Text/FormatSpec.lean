/-
Format specifications. A specification says how a text is laid out where it is put into another: it is cut to a precision
and then padded to a width with a fill character, on the sides that its alignment leaves free.

The form is one that numbers share. So there may also be a sign, a mark against negative zeros, a mark for an alternate
form, a leading zero, a separator of thousands and a type. A leading zero is the fill character, if no other is given; the
type of a text is `s`, and the rest is not for texts. The faults of the form come first, from left to right, and then those
of using it for a text.

Main statement: `layOut_nil`, an empty specification leaves a text as it is.
-/
import LetFront.Text.DecimalDigit

namespace LetFront.Text

/-- what is wrong with a specification, or with using it for a text -/
inductive FormatFault where
  | hugeNumber
  | bothSeparators
  | missingPrecision
  /-- something is left behind the type -/
  | invalid (spec : String)
  /-- numbers of the type have no such separator -/
  | separatorWith (separator type : Char)
  | unknownType (type : Char)
  | sign
  | spaceSign
  | negativeZero
  | alternate
  | numberAlignment
  deriving DecidableEq, Repr

/-- where a text stands in its width; with `number`, padding goes between a sign and its digits -/
inductive Alignment where
  | left | right | centre | number
  deriving DecidableEq, Repr

def Alignment.ofChar? : Char → Option Alignment
  | '<' => some .left
  | '>' => some .right
  | '^' => some .centre
  | '=' => some .number
  | _ => none

structure FormatSpec where
  fill : Char
  alignment : Alignment
  sign : Option Char
  noNegativeZero : Bool
  isAlternate : Bool
  width : Option Nat
  precision : Option Nat
  type : Char
  deriving DecidableEq, Repr

namespace FormatSpec

/-! ## The parts of a specification, each with what follows it -/

/-- the fill character and the alignment; there is no fill character without an alignment -/
def readAlignment (cs : List Char) : Option Char × Option Alignment × List Char :=
  match cs with
  | [] => (none, none, [])
  | c :: rest =>
    match rest.head?.bind Alignment.ofChar? with
    | some a => (some c, some a, rest.tail)
    | none =>
      match Alignment.ofChar? c with
      | some a => (none, some a, rest)
      | none => (none, none, c :: rest)

/-- a character that satisfies `p`, if there is one -/
def accept (p : Char → Bool) : List Char → Option Char × List Char
  | [] => (none, [])
  | c :: cs => if p c then (some c, cs) else (none, c :: cs)

/-- a number, if there is one -/
def readNumber (cs : List Char) : Except FormatFault (Option Nat × List Char) :=
  match readDigits 0 cs with
  | none => .error .hugeNumber
  | some (n, rest) => .ok (if rest.length = cs.length then none else some n, rest)

/-- a separator of thousands, if there is one -/
def readSeparator : List Char → Except FormatFault (Option Char × List Char)
  | ',' :: '_' :: _ => .error .bothSeparators
  | '_' :: ',' :: _ => .error .bothSeparators
  | ',' :: cs => .ok (some ',', cs)
  | '_' :: cs => .ok (some '_', cs)
  | cs => .ok (none, cs)

/-- a precision, if there is a point -/
def readPrecision : List Char → Except FormatFault (Option Nat × List Char)
  | '.' :: cs => do
    let (n, cs) ← readNumber cs
    if n.isNone then throw .missingPrecision
    return (n, cs)
  | cs => .ok (none, cs)

/-- the type, which ends the specification `spec` -/
def readType (spec : List Char) : List Char → Except FormatFault Char
  | [] => .ok 's'
  | [c] => .ok c
  | _ => .error (.invalid (String.ofList spec))

/-- whether numbers of a type may have a separator -/
def allowsSeparator (type separator : Char) : Bool :=
  ['d', 'e', 'f', 'g', 'E', 'G', '%', 'F', '\x00'].contains type ||
    separator = '_' && ['b', 'o', 'x', 'X'].contains type

def read (spec : List Char) : Except FormatFault FormatSpec := do
  let (fill, alignment, cs) := readAlignment spec
  let (sign, cs) := accept (fun c => c = '+' || c = '-' || c = ' ') cs
  let (noNegativeZero, cs) := accept (· = 'z') cs
  let (alternate, cs) := accept (· = '#') cs
  let (zero, cs) := accept (fun c => fill.isNone && c = '0') cs
  let (width, cs) ← readNumber cs
  let (separator, cs) ← readSeparator cs
  let (precision, cs) ← readPrecision cs
  let type ← readType spec cs
  match separator.filter (!allowsSeparator type ·) with
  | some separator => throw (.separatorWith separator type)
  | none =>
    return {
      sign, width, precision, type
      fill := (fill.or zero).getD ' '
      alignment := alignment.getD .left
      noNegativeZero := noNegativeZero.isSome
      isAlternate := alternate.isSome }

/-! ## Texts -/

/-- what of the specification is not for texts; the first such thing counts -/
def textFault? (f : FormatSpec) : Option FormatFault :=
  if f.type ≠ 's' then some (.unknownType f.type)
  else if f.sign = some ' ' then some .spaceSign
  else if f.sign.isSome then some .sign
  else if f.noNegativeZero then some .negativeZero
  else if f.isAlternate then some .alternate
  else if f.alignment = .number then some .numberAlignment
  else none

/-- `text` in a width, with the fill character around it -/
def pad (f : FormatSpec) (text : List Char) : List Char :=
  let free := f.width.getD 0 - text.length
  let front := match f.alignment with
    | .left => 0
    | .right => free
    | .centre => free / 2
    | .number => 0
  List.replicate front f.fill ++ text ++ List.replicate (free - front) f.fill

/-- `text` no longer than the precision -/
def cut (f : FormatSpec) (text : List Char) : List Char :=
  match f.precision with
  | none => text
  | some n => text.take n

end FormatSpec

/-- `text` laid out by the specification `spec` -/
def layOut (text spec : List Char) : Except FormatFault (List Char) := do
  let f ← FormatSpec.read spec
  match f.textFault? with
  | some fault => throw fault
  | none => return f.pad (f.cut text)

/-- **An empty specification leaves a text as it is.** -/
theorem layOut_nil (text : List Char) : layOut text [] = .ok text := by
  change Except.ok (FormatSpec.pad ⟨' ', .left, none, false, false, none, none, 's'⟩ text) = _
  simp [FormatSpec.pad]

end LetFront.Text
