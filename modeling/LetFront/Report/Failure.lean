/-
Failures that are not worded for the user. Whoever meets one can only show its label and its text.
-/
import LetFront.Program.Error
import LetFront.Text.Slice
import LetFront.Text.Template
import LetFront.Text.Utf8

namespace LetFront

inductive Failure where
  /-- a message template that cannot be filled by its arguments -/
  | template (fault : Text.TemplateFault)
  /-- a message about nothing -/
  | noSubject
  /-- a line that a source does not have -/
  | noLine (fault : Text.PositionFault)
  /-- a column that a line does not have -/
  | noColumn (fault : Text.PositionFault)
  /-- something to be repeated more often than can be counted -/
  | hugeCount
  /-- a path with a NUL character -/
  | nulInPath
  /-- a file that is not UTF-8 -/
  | undecodable (fault : Text.Utf8.Fault)
  | parse (error : ParseError)
  | badValue (text : String)
  | badType (text : String)
  | runtime (text : String)
  | missingKey (key : Option String)
  /-- a failure of any other kind -/
  | other (label text : String)
  deriving DecidableEq, Repr

namespace Failure

def templateLabel : Text.TemplateFault → String
  | .noArgument _ => "IndexError"
  | .noCharacter => "IndexError"
  | .named _ => "KeyError"
  | .noAttribute _ => "AttributeError"
  | .notPosition => "TypeError"
  | .member label _ => label
  | _ => "ValueError"

def label : Failure → String
  | template fault => templateLabel fault
  | noSubject => "IndexError"
  | noLine _ => "IndexError"
  | noColumn _ => "IndexError"
  | hugeCount => "OverflowError"
  | nulInPath => "ValueError"
  | undecodable _ => "UnicodeDecodeError"
  | parse _ => "ParseError"
  | badValue _ => "ValueError"
  | badType _ => "TypeError"
  | runtime _ => "RuntimeError"
  | missingKey _ => "KeyError"
  | other label _ => label

/-- a character as a message names it: itself, or its code point if that is below `low` or above `high` -/
def named (low high : Nat) (c : Char) : String :=
  if low ≤ c.toNat ∧ c.toNat ≤ high then String.singleton c
  else
    let digits := (Text.hexDigits 7 (c.toNat / 16)).dropWhile (· = '0') ++ [Text.hexDigit (c.toNat % 16)]
    "\\x" ++ String.ofList digits

def formatText : Text.FormatFault → String
  | .hugeNumber => "Too many decimal digits in format string"
  | .bothSeparators => "Cannot specify both ',' and '_'."
  | .missingPrecision => "Format specifier missing precision"
  | .invalid spec => s!"Invalid format specifier '{spec}' for object of type 'str'"
  | .separatorWith separator type =>
    "Cannot specify '" ++ String.singleton separator ++ "' with '" ++ named 33 127 type ++ "'."
  | .unknownType type => "Unknown format code '" ++ named 33 127 type ++ "' for object of type 'str'"
  | .sign => "Sign not allowed in string format specifier"
  | .spaceSign => "Space not allowed in string format specifier"
  | .negativeZero => "Negative zero coercion (z) not allowed in string format specifier"
  | .alternate => "Alternate form (#) not allowed in string format specifier"
  | .numberAlignment => "'=' alignment not allowed in string format specifier"

def templateText : Text.TemplateFault → String
  | .loneClose => "Single '\x7d' encountered in format string"
  | .loneOpen => "Single '\x7b' encountered in format string"
  | .unclosed => "expected '\x7d' before end of string"
  | .openInName => "unexpected '\x7b' in field name"
  | .noConversion => "end of string while looking for conversion specifier"
  | .afterConversion => "expected ':' after conversion specifier"
  | .unclosedSpec => "unmatched '\x7b' in format spec"
  | .hugeNumber => "Too many decimal digits in format string"
  | .numberedAfterEmpty => "cannot switch from automatic field numbering to manual field specification"
  | .emptyAfterNumbered => "cannot switch from manual field specification to automatic field numbering"
  | .noArgument i => s!"Replacement index {i} out of range for positional args tuple"
  | .named key => Text.quoted key
  | .emptyAccess => "Empty attribute in format string"
  | .unclosedBracket => "Missing ']' in format string"
  | .afterBracket => "Only '.' or '[' may follow ']' in format field specifier"
  | .notPosition => "string indices must be integers, not 'str'"
  | .noCharacter => "string index out of range"
  | .noAttribute name => s!"'str' object has no attribute '{name}'"
  | .member _ text => text
  | .unknownConversion c => "Unknown conversion specifier " ++ named 33 126 c
  | .tooDeep => "Max string recursion exceeded"
  | .format fault => formatText fault

def text : Failure → String
  | template fault => templateText fault
  | noSubject => "list index out of range"
  | noLine .offEnd => "list index out of range"
  | noColumn .offEnd => "string index out of range"
  | noLine .unfit => "cannot fit 'int' into an index-sized integer"
  | noColumn .unfit => "cannot fit 'int' into an index-sized integer"
  | hugeCount => "cannot fit 'int' into an index-sized integer"
  | nulInPath => "embedded null byte"
  | undecodable fault => fault.message
  | parse error => error.render
  | badValue text => text
  | badType text => text
  | runtime text => text
  | missingKey key => key.elim "" Text.quoted
  | other _ text => text

end Failure

end LetFront
