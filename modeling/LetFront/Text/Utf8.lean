/-
UTF-8 read one byte at a time. Between characters a byte starts a new one; inside a character the state keeps how many
bytes are still owed and the least and the greatest value the next one may have. These bounds leave out overlong forms,
surrogates and code points past the last one, so the first byte that no text can have there is the first fault.
-/

namespace LetFront.Text.Utf8

/-- why bytes are no text -/
inductive Reason where
  | invalidStart : Reason
  | unexpectedEnd : Reason
  | invalidContinuation : Reason
  deriving DecidableEq, Repr

def Reason.message : Reason → String
  | .invalidStart => "invalid start byte"
  | .unexpectedEnd => "unexpected end of data"
  | .invalidContinuation => "invalid continuation byte"

/-- the first fault: the faulty bytes start at `position` with the byte `lead`, and there are `length` of them -/
structure Fault where
  lead : UInt8
  position : Nat
  length : Nat
  reason : Reason
  deriving DecidableEq, Repr

/-- a byte in hexadecimal, always two digits -/
def hexByte (b : UInt8) : String :=
  String.ofList [Nat.digitChar (b.toNat / 16), Nat.digitChar (b.toNat % 16)]

def Fault.message (f : Fault) : String :=
  "'utf-8' codec can't decode " ++
    (if f.length = 1 then s!"byte 0x" ++ hexByte f.lead ++ s!" in position {f.position}"
      else s!"bytes in position {f.position}-{f.position + f.length - 1}") ++
    ": " ++ f.reason.message

/-- a character of which some bytes are read -/
structure Partial where
  lead : UInt8
  length : Nat
  value : Nat
  owed : Nat
  low : Nat
  high : Nat
  deriving DecidableEq, Repr

/-- the state after the first byte of a character of several bytes -/
def start? (b : UInt8) : Option Partial :=
  let n := b.toNat
  if 0xC2 ≤ n ∧ n ≤ 0xDF then some ⟨b, 1, n % 0x20, 1, 0x80, 0xBF⟩
  else if 0xE0 ≤ n ∧ n ≤ 0xEF then
    some ⟨b, 1, n % 0x10, 2, if n = 0xE0 then 0xA0 else 0x80, if n = 0xED then 0x9F else 0xBF⟩
  else if 0xF0 ≤ n ∧ n ≤ 0xF4 then
    some ⟨b, 1, n % 0x08, 3, if n = 0xF0 then 0x90 else 0x80, if n = 0xF4 then 0x8F else 0xBF⟩
  else none

/-- one more byte of a character -/
def Partial.push (p : Partial) (b : UInt8) : Partial :=
  ⟨p.lead, p.length + 1, p.value * 0x40 + b.toNat % 0x40, p.owed - 1, 0x80, 0xBF⟩

/-- the text of the bytes from position `pos` on, inside a character if there is a partial one -/
def decodeFrom : Nat → Option Partial → List UInt8 → Except Fault (List Char)
  | _, none, [] => .ok []
  | pos, some p, [] => .error ⟨p.lead, pos - p.length, p.length, .unexpectedEnd⟩
  | pos, none, b :: bs =>
    if b.toNat < 0x80 then (Char.ofNat b.toNat :: ·) <$> decodeFrom (pos + 1) none bs
    else
      match start? b with
      | some p => decodeFrom (pos + 1) (some p) bs
      | none => .error ⟨b, pos, 1, .invalidStart⟩
  | pos, some p, b :: bs =>
    if p.low ≤ b.toNat ∧ b.toNat ≤ p.high then
      if p.owed = 1 then (Char.ofNat (p.push b).value :: ·) <$> decodeFrom (pos + 1) none bs
      else decodeFrom (pos + 1) (some (p.push b)) bs
    else .error ⟨p.lead, pos - p.length, p.length, .invalidContinuation⟩

/-- the text that the bytes spell, or the first fault -/
def decode (bytes : List UInt8) : Except Fault (List Char) := decodeFrom 0 none bytes

end LetFront.Text.Utf8
