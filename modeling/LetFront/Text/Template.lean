/-
Message templates. Holes are written in braces, and a brace of the text itself is written twice. A hole has a name, which
says what is put into the hole; it may go on with an exclamation mark and a conversion, which quotes the value, and with a
colon and a format specification, which lays it out.

A name begins with the number of an argument, in the decimal digits of any script, or with nothing, for the next argument;
a template keeps to one of the two ways. Behind that, brackets ask for a character of the value by its position, and a
point for an attribute. Arguments are texts. A text has the attributes of its class and no others. These are values of
their own kinds, which are shown with their addresses in memory and the like, and have attributes themselves; `Members` is
what there is to show of them.

A format specification may have holes itself, but not in the specifications of these. They take part in the numbering.

`read` takes a template apart, and `expand` fills its holes from left to right. The first fault on the way counts, and what
it is may depend on the arguments: a position may be off the end of one, and a specification may come from one. So a
template that was filled once may fail to be filled with other arguments, or be laid out in another way.

Main statements: `format_text`, a text without braces stands for itself; `format_about`, one plain hole in such a text.
-/
import LetFront.Text.FormatSpec
import LetFront.Text.Quoted

namespace LetFront.Text

/-- what is wrong with a template, or with filling it -/
inductive TemplateFault where
  | loneClose
  | loneOpen
  | unclosed
  | openInName
  | noConversion
  | afterConversion
  | unclosedSpec
  | hugeNumber
  | numberedAfterEmpty
  | emptyAfterNumbered
  | noArgument (i : Nat)
  /-- arguments have no names -/
  | named (key : String)
  | emptyAccess
  | unclosedBracket
  | afterBracket
  /-- a position that is no number -/
  | notPosition
  | noCharacter
  | noAttribute (name : String)
  /-- what is asked for of an attribute is not there, or cannot be shown like that -/
  | member (label text : String)
  | unknownConversion (c : Char)
  | tooDeep
  | format (fault : FormatFault)
  deriving DecidableEq, Repr

namespace Template

/-! ## Taking a template apart -/

/-- a hole as it is written, the holes of its specification included -/
structure Field where
  name : List Char
  conversion : Option Char
  spec : List Char
  deriving DecidableEq, Repr

/-- a character of the text, a hole, or what is wrong from there on -/
inductive Piece where
  | char (c : Char)
  | field (f : Field)
  | fault (fault : TemplateFault)
  deriving DecidableEq, Repr

/-- where the reader of a template stands, with what it has read of a hole -/
inductive Place where
  | text
  /-- behind a brace -/
  | opened
  | closed
  /-- in a name, where brackets keep other signs from ending it -/
  | naming (chars : List Char) (inBrackets : Bool)
  /-- behind an exclamation mark -/
  | marked (name : List Char)
  | converted (name : List Char) (conversion : Char)
  /-- in a specification, inside so many further braces -/
  | spec (name : List Char) (conversion : Option Char) (braces : Nat) (chars : List Char)
  deriving DecidableEq, Repr

namespace Place

/-- the next character of a name that is not in brackets -/
def inName (chars : List Char) (c : Char) : Except TemplateFault (Option Piece × Place) :=
  if c = '}' then .ok (some (.field ⟨chars, none, []⟩), text)
  else if c = ':' then .ok (none, spec chars none 0 [])
  else if c = '!' then .ok (none, marked chars)
  else if c = '{' then .error .openInName
  else .ok (none, naming (chars ++ [c]) (c = '['))

/-- the piece that ends with a character, if one does, and where the reader stands then -/
def next : Place → Char → Except TemplateFault (Option Piece × Place)
  | text, c =>
    if c = '{' then .ok (none, opened)
    else if c = '}' then .ok (none, closed)
    else .ok (some (.char c), text)
  | opened, c => if c = '{' then .ok (some (.char c), text) else inName [] c
  | closed, c => if c = '}' then .ok (some (.char c), text) else .error .loneClose
  | naming chars false, c => inName chars c
  | naming chars true, c => .ok (none, naming (chars ++ [c]) (c ≠ ']'))
  | marked name, c => .ok (none, converted name c)
  | converted name conversion, c =>
    if c = '}' then .ok (some (.field ⟨name, some conversion, []⟩), text)
    else if c = ':' then .ok (none, spec name (some conversion) 0 [])
    else .error .afterConversion
  | spec name conversion braces chars, c =>
    if c = '{' then .ok (none, spec name conversion (braces + 1) (chars ++ [c]))
    else if c = '}' then
      match braces with
      | 0 => .ok (some (.field ⟨name, conversion, chars⟩), text)
      | braces + 1 => .ok (none, spec name conversion braces (chars ++ [c]))
    else .ok (none, spec name conversion braces (chars ++ [c]))

/-- what is wrong if a template ends there -/
def endFault? : Place → Option TemplateFault
  | text => none
  | opened => some .loneOpen
  | closed => some .loneClose
  | naming _ _ => some .unclosed
  | marked _ => some .noConversion
  | converted _ _ => some .unclosedSpec
  | spec _ _ _ _ => some .unclosedSpec

end Place

/-- the pieces of the rest of a template; behind a fault there are none -/
def readFrom (place : Place) : List Char → List Piece
  | [] => place.endFault?.toList.map .fault
  | c :: cs =>
    match place.next c with
    | .error fault => [.fault fault]
    | .ok (piece?, place) => piece?.toList ++ readFrom place cs

/-- the pieces of a template -/
def read (template : String) : List Piece := readFrom .text template.toList

/-! ## What is put into a hole -/

/-- how the holes so far were written; `empty k` when `k` of them were empty -/
inductive Numbering where
  | undecided : Numbering
  | empty : Nat → Numbering
  | numbered : Numbering
  deriving DecidableEq, Repr

/-- the number that a text spells; none if a character in it is no digit -/
def readNumber (cs : List Char) : Except TemplateFault (Option Nat) :=
  match readDigits 0 cs with
  | none => .error .hugeNumber
  | some (n, rest) => .ok (if cs = [] ∨ rest ≠ [] then none else some n)

/-- the argument that a name asks for which begins with `front`, and the way of writing holes from then on -/
def resolve (way : Numbering) (front : List Char) : Except TemplateFault (Nat × Numbering) :=
  if front = [] then
    match way with
    | .undecided => .ok (0, .empty 1)
    | .empty k => .ok (k, .empty (k + 1))
    | .numbered => .error .emptyAfterNumbered
  else
    match readNumber front with
    | .error fault => .error fault
    | .ok none => .error (.named (String.ofList front))
    | .ok (some i) =>
      match way with
      | .empty _ => .error .numberedAfterEmpty
      | _ => .ok (i, .numbered)

/-- a value as it is shown: as a text, quoted, quoted in ASCII, and laid out by a specification -/
structure Value where
  text : List Char
  quoted : List Char
  asciiQuoted : List Char
  layOut : List Char → Except TemplateFault (List Char)

def Value.ofText (cs : List Char) : Value where
  text := cs
  quoted := quotedChars cs
  asciiQuoted := asciiQuotedChars cs
  layOut spec := (Text.layOut cs spec).mapError .format

theorem Value.layOut_nil (cs : List Char) : (ofText cs).layOut [] = .ok cs := by
  change (Text.layOut cs []).mapError TemplateFault.format = _
  rw [Text.layOut_nil]
  rfl

/-- what is there, for the number of an argument, a text that is the argument or in it, and the rest of a name from the
point in front of an attribute on that texts have -/
abbrev Members := Nat → List Char → List Char → Except TemplateFault Value

/-- whether a character ends the number or the attribute in front of it -/
def isAccess (c : Char) : Bool := c = '.' || c = '['

/-- the attributes of texts -/
def memberNames : List String :=
  ["__add__", "__class__", "__contains__", "__delattr__", "__dir__", "__doc__", "__eq__", "__format__", "__ge__",
   "__getattribute__", "__getitem__", "__getnewargs__", "__getstate__", "__gt__", "__hash__", "__init__",
   "__init_subclass__", "__iter__", "__le__", "__len__", "__lt__", "__mod__", "__mul__", "__ne__", "__new__",
   "__reduce__", "__reduce_ex__", "__repr__", "__rmod__", "__rmul__", "__setattr__", "__sizeof__", "__str__",
   "__subclasshook__", "capitalize", "casefold", "center", "count", "encode", "endswith", "expandtabs", "find",
   "format", "format_map", "index", "isalnum", "isalpha", "isascii", "isdecimal", "isdigit", "isidentifier",
   "islower", "isnumeric", "isprintable", "isspace", "istitle", "isupper", "join", "ljust", "lower", "lstrip",
   "maketrans", "partition", "removeprefix", "removesuffix", "replace", "rfind", "rindex", "rjust", "rpartition",
   "rsplit", "rstrip", "split", "splitlines", "startswith", "strip", "swapcase", "title", "translate", "upper",
   "zfill"]

/-- why a text has no attribute of that name -/
def attributeFault? (name : List Char) : Option TemplateFault :=
  if name = [] then some .emptyAccess
  else if memberNames.contains (String.ofList name) then none
  else some (.noAttribute (String.ofList name))

/-- the character of a value that brackets ask for with the text `position` -/
def characterAt (value position : List Char) : Except TemplateFault (List Char) :=
  match readNumber position with
  | .error fault => .error fault
  | .ok none => .error (if position = [] then .emptyAccess else .notPosition)
  | .ok (some i) =>
    match value[i]? with
    | none => .error .noCharacter
    | some c => .ok [c]

/-- what the rest of a name asks for of a text, in brackets of which `position` was read if that is some text -/
def access (member : List Char → List Char → Except TemplateFault Value) (value : List Char)
    (position : Option (List Char)) : List Char → Except TemplateFault Value
  | [] => if position.isNone then .ok (.ofText value) else .error .unclosedBracket
  | c :: cs =>
    match position with
    | none =>
      if c = '.' then
        match attributeFault? (cs.takeWhile (!isAccess ·)) with
        | some fault => .error fault
        | none => member value (c :: cs)
      else if c = '[' then access member value (some []) cs
      else .error .afterBracket
    | some position =>
      if c = ']' then do
        let value ← characterAt value position
        access member value none cs
      else access member value (some (position ++ [c])) cs

/-- what a name asks for, and the way of writing holes from then on -/
def lookup (members : Members) (args : List String) (way : Numbering) (name : List Char) :
    Except TemplateFault (Value × Numbering) := do
  let (i, way) ← resolve way (name.takeWhile (!isAccess ·))
  match args[i]? with
  | none => throw (.noArgument i)
  | some arg => return (← access (members i) arg.toList none (name.dropWhile (!isAccess ·)), way)

/-- a value as a conversion shows it; a NUL counts as no conversion -/
def convert (value : Value) : Option Char → Except TemplateFault Value
  | none => .ok value
  | some c =>
    if c = '\x00' then .ok value
    else if c = 's' then .ok (.ofText value.text)
    else if c = 'r' then .ok (.ofText value.quoted)
    else if c = 'a' then .ok (.ofText value.asciiQuoted)
    else .error (.unknownConversion c)

/-! ## Filling -/

/-- the specification of a hole, filled by `expand` if it has holes -/
def Field.expandSpec (expand : Numbering → List Char → Except TemplateFault (List Char × Numbering)) (way : Numbering)
    (f : Field) : Except TemplateFault (List Char × Numbering) :=
  if '{' ∈ f.spec then expand way f.spec else .ok (f.spec, way)

/-- what is put into a hole -/
def Field.fill (members : Members) (args : List String)
    (expand : Numbering → List Char → Except TemplateFault (List Char × Numbering)) (way : Numbering) (f : Field) :
    Except TemplateFault (List Char × Numbering) := do
  let (value, way) ← lookup members args way f.name
  let value ← convert value f.conversion
  let (spec, way) ← f.expandSpec expand way
  return (← value.layOut spec, way)

def fill (members : Members) (args : List String)
    (expand : Numbering → List Char → Except TemplateFault (List Char × Numbering)) :
    Numbering → List Piece → Except TemplateFault (List Char × Numbering)
  | way, [] => .ok ([], way)
  | way, .char c :: pieces => do
    let (text, way) ← fill members args expand way pieces
    return (c :: text, way)
  | way, .field f :: pieces => do
    let (value, way) ← f.fill members args expand way
    let (text, way) ← fill members args expand way pieces
    return (value ++ text, way)
  | _, .fault fault :: _ => .error fault

/-- the rest of a template with its holes filled, where holes may stand in each other `levels` deep -/
def expand (members : Members) (args : List String) :
    Nat → Numbering → List Char → Except TemplateFault (List Char × Numbering)
  | 0, _, _ => .error .tooDeep
  | levels + 1, way, cs => fill members args (expand members args levels) way (readFrom .text cs)

/-- a template with its holes filled by the arguments -/
def format (members : Members) (template : String) (args : List String) : Except TemplateFault String :=
  (String.ofList ·.1) <$> expand members args 2 .undecided template.toList

/-! ## Texts without braces -/

/-- a text without braces -/
def Unbraced (s : String) : Prop := '{' ∉ s.toList ∧ '}' ∉ s.toList

instance (s : String) : Decidable (Unbraced s) := inferInstanceAs (Decidable (_ ∧ _))

theorem readFrom_append {s : String} (h : Unbraced s) (rest : List Char) :
    readFrom .text (s.toList ++ rest) = s.toList.map .char ++ readFrom .text rest := by
  obtain ⟨hopen, hclose⟩ := h
  generalize s.toList = cs at hopen hclose ⊢
  induction cs with
  | nil => rfl
  | cons c cs ih =>
    rw [List.mem_cons, not_or] at hopen hclose
    have hnext : Place.text.next c = .ok (some (.char c), .text) := by
      rw [Place.next, if_neg (Ne.symm hopen.1), if_neg (Ne.symm hclose.1)]
    rw [List.cons_append, readFrom, hnext, List.map_cons, List.cons_append, ← ih hopen.2 hclose.2]
    rfl

theorem read_text {s : String} (h : Unbraced s) : read s = s.toList.map .char := by
  have hread := readFrom_append h []
  rwa [List.append_nil, readFrom, Place.endFault?, Option.toList_none, List.map_nil, List.append_nil] at hread

/-- a plain hole in such a text -/
theorem read_about {lead tail : String} (hlead : Unbraced lead) (htail : Unbraced tail) :
    read (lead ++ "\x7b\x7d" ++ tail) = lead.toList.map .char ++ .field ⟨[], none, []⟩ :: tail.toList.map .char := by
  have hchars : (lead ++ "\x7b\x7d" ++ tail).toList = lead.toList ++ '{' :: '}' :: tail.toList := by simp
  have hhole : readFrom .text ('{' :: '}' :: tail.toList) = .field ⟨[], none, []⟩ :: read tail := rfl
  rw [read, hchars, readFrom_append hlead, hhole, read_text htail]

/-- characters in front of pieces -/
def before (cs : List Char) (filled : List Char × Numbering) : List Char × Numbering := (cs ++ filled.1, filled.2)

section

variable (members : Members) (args : List String)
  (expand : Numbering → List Char → Except TemplateFault (List Char × Numbering))

theorem fill_append (way : Numbering) (cs : List Char) (pieces : List Piece) :
    fill members args expand way (cs.map .char ++ pieces) = before cs <$> fill members args expand way pieces := by
  induction cs with
  | nil => exact (id_map _).symm
  | cons c cs ih =>
    rw [List.map_cons, List.cons_append, fill, ih]
    cases fill members args expand way pieces <;> rfl

theorem fill_text (way : Numbering) (cs : List Char) : fill members args expand way (cs.map .char) = .ok (cs, way) := by
  have hfill := fill_append members args expand way cs []
  rw [List.append_nil] at hfill
  rw [hfill, fill]
  change Except.ok (cs ++ [], way) = _
  rw [List.append_nil]

end

theorem format_eq (members : Members) (template : String) (args : List String) :
    format members template args =
      (String.ofList ·.1) <$> fill members args (expand members args 1) .undecided (read template) := rfl

/-- **A text without braces stands for itself.** -/
theorem format_text {s : String} (h : Unbraced s) (members : Members) (args : List String) :
    format members s args = .ok s := by
  rw [format_eq, read_text h, fill_text]
  exact congrArg Except.ok String.ofList_toList

/-- **A plain hole in such a text** is filled by the argument as it is. -/
theorem format_about {lead tail : String} (hlead : Unbraced lead) (htail : Unbraced tail) (members : Members)
    (arg : String) : format members (lead ++ "\x7b\x7d" ++ tail) [arg] = .ok (lead ++ arg ++ tail) := by
  have hhole : Field.fill members [arg] (expand members [arg] 1) .undecided ⟨[], none, []⟩ =
      .ok (arg.toList, .empty 1) := by
    change (do return (← (Value.ofText arg.toList).layOut [], Numbering.empty 1)) = _
    rw [Value.layOut_nil]
    rfl
  have hfilled : fill members [arg] (expand members [arg] 1) .undecided
      (.field ⟨[], none, []⟩ :: tail.toList.map .char) = .ok (arg.toList ++ tail.toList, .empty 1) := by
    rw [fill, hhole]
    change (do let (text, way) ← fill _ _ _ (.empty 1) _; return (arg.toList ++ text, way)) = _
    rw [fill_text]
    rfl
  rw [format_eq, read_about hlead htail, fill_append, hfilled]
  change Except.ok (String.ofList (lead.toList ++ (arg.toList ++ tail.toList))) = _
  simp only [String.ofList_append, String.ofList_toList, String.append_assoc]

end Template

end LetFront.Text
