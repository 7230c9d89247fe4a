/-
The quoted form of a text. It stands between single quotes, or between double quotes if it holds a single quote and no
double one; the quote in use and the backslash are escaped by a backslash, line ends and tabs are written by letter,
and any other character that is not printable by its code point in two, four or eight hexadecimal digits.
-/
import LetFront.Text.Printable

namespace LetFront.Text

def hexDigit (n : Nat) : Char :=
  if n < 10 then Char.ofNat ('0'.toNat + n) else Char.ofNat ('a'.toNat + (n - 10))

/-- the last `width` hexadecimal digits of `n` -/
def hexDigits : Nat → Nat → List Char
  | 0, _ => []
  | width + 1, n => hexDigits width (n / 16) ++ [hexDigit (n % 16)]

/-- a character by its code point, in the fewest digits of the three widths -/
def escapeCode (n : Nat) : List Char :=
  if n < 0x100 then '\\' :: 'x' :: hexDigits 2 n
  else if n < 0x10000 then '\\' :: 'u' :: hexDigits 4 n
  else '\\' :: 'U' :: hexDigits 8 n

/-- one character as it stands between quotes of the kind `mark` -/
def escapeChar (mark c : Char) : List Char :=
  if c = mark ∨ c = '\\' then ['\\', c]
  else if c = '\n' then ['\\', 'n']
  else if c = '\r' then ['\\', 'r']
  else if c = '\t' then ['\\', 't']
  else if isPrintable c then [c]
  else escapeCode c.toNat

/-- the kind of quote for a text -/
def quoteMark (cs : List Char) : Char :=
  if cs.contains '\'' && !cs.contains '"' then '"' else '\''

def quotedChars (cs : List Char) : List Char :=
  quoteMark cs :: cs.flatMap (escapeChar (quoteMark cs)) ++ [quoteMark cs]

/-- the quoted form of `s` -/
def quoted (s : String) : String := String.ofList (quotedChars s.toList)

/-- the quoted form, in ASCII only -/
def asciiQuotedChars (cs : List Char) : List Char :=
  (quotedChars cs).flatMap fun c => if c.toNat < 0x80 then [c] else escapeCode c.toNat

end LetFront.Text
