/-
Coloured text. Colours and attributes are escape sequences: the colour stands in front of the text, every attribute in
front of all that came before it, and a reset after it. Painting an empty text still leaves these sequences.

Whether to paint at all is for the user to say, in three variables of the environment; a variable that is empty counts
as not given.
-/

namespace LetFront

inductive Colour where
  | black | grey | red | green | yellow | blue | magenta | cyan | lightGrey | darkGrey | lightRed | lightGreen
  | lightYellow | lightBlue | lightMagenta | lightCyan | white
  deriving DecidableEq, Repr

namespace Colour

def all : List Colour :=
  [black, grey, red, green, yellow, blue, magenta, cyan, lightGrey, darkGrey, lightRed, lightGreen, lightYellow,
   lightBlue, lightMagenta, lightCyan, white]

def name : Colour → String
  | black => "black"
  | grey => "grey"
  | red => "red"
  | green => "green"
  | yellow => "yellow"
  | blue => "blue"
  | magenta => "magenta"
  | cyan => "cyan"
  | lightGrey => "light_grey"
  | darkGrey => "dark_grey"
  | lightRed => "light_red"
  | lightGreen => "light_green"
  | lightYellow => "light_yellow"
  | lightBlue => "light_blue"
  | lightMagenta => "light_magenta"
  | lightCyan => "light_cyan"
  | white => "white"

/-- the number of the colour in an escape sequence; black and grey share one -/
def code : Colour → Nat
  | black => 30
  | grey => 30
  | red => 31
  | green => 32
  | yellow => 33
  | blue => 34
  | magenta => 35
  | cyan => 36
  | lightGrey => 37
  | darkGrey => 90
  | lightRed => 91
  | lightGreen => 92
  | lightYellow => 93
  | lightBlue => 94
  | lightMagenta => 95
  | lightCyan => 96
  | white => 97

def ofName? (s : String) : Option Colour := all.find? fun c => c.name == s

end Colour

inductive Attribute where
  | bold | dark | italic | underline | blink | reverse | concealed | strike
  deriving DecidableEq, Repr

namespace Attribute

def all : List Attribute := [bold, dark, italic, underline, blink, reverse, concealed, strike]

def name : Attribute → String
  | bold => "bold"
  | dark => "dark"
  | italic => "italic"
  | underline => "underline"
  | blink => "blink"
  | reverse => "reverse"
  | concealed => "concealed"
  | strike => "strike"

/-- the number of the attribute in an escape sequence -/
def code : Attribute → Nat
  | bold => 1
  | dark => 2
  | italic => 3
  | underline => 4
  | blink => 5
  | reverse => 7
  | concealed => 8
  | strike => 9

def ofName? (s : String) : Option Attribute := all.find? fun a => a.name == s

end Attribute

/-- the variables that say whether to paint -/
structure Environment where
  noColour : Option String
  forceColour : Option String
  coloursDisabled : Option String
  deriving DecidableEq, Repr

/-- whether a variable is given and not empty -/
def isGiven (v : Option String) : Bool := v.any (!·.isEmpty)

/-- colours are asked for and nothing forbids them -/
def Environment.allowsColour (e : Environment) : Bool :=
  isGiven e.forceColour && !isGiven e.noColour && !isGiven e.coloursDisabled

/-- the escape sequence with a number -/
def escapeSequence (n : Nat) : String := s!"\x1b[{n}m"

/-- a text in a colour and with attributes, if painting is on -/
def paint (on : Bool) (colour : Option Colour) (attributes : List Attribute) (text : String) : String :=
  if on then
    attributes.foldl (fun t a => escapeSequence a.code ++ t) (colour.elim "" (escapeSequence ·.code) ++ text) ++
      escapeSequence 0
  else text

/-- a text that should stand out -/
def emphasise (on : Bool) (text : String) : String := paint on none [.bold] text

/-- a text that tells of an error -/
def alarm (on : Bool) (text : String) : String := paint on (some .red) [.bold] text

end LetFront
