/-
Notices: problems worded for the user. A notice is a message template filled by the snippets it is about; the first of
them is its subject, of which a part from `start` to `stop` may be pointed at.

A notice is only made from a template that its snippets fill, and keeps the message. It can be worded again with the
snippets changed, painted for one; that fills the template anew, and may fail or give another text than the message with
its snippets changed, as the template may look into them.
-/
import LetFront.Report.Failure

namespace LetFront

structure Notice where
  /-- what there is to show of the attributes of snippets, if the template asks for any -/
  members : Text.Template.Members
  template : String
  snippets : List String
  snippets_ne : snippets ≠ []
  /-- the message -/
  text : String
  text_eq : Text.Template.format members template snippets = .ok text
  start : Int
  stop : Int
  /-- whether the subject is shown with the part that is pointed at -/
  pointed : Bool
  /-- whether the problem is the program's own -/
  isInternal : Bool

namespace Notice

/-- the snippet that the notice is about -/
def subject (n : Notice) : String := n.snippets.head n.snippets_ne

/-- the message with every snippet changed by `f` -/
def wording (n : Notice) (f : String → String) : Except Failure String :=
  (Text.Template.format n.members n.template (n.snippets.map f)).mapError .template

/-- make a notice; a stop of minus one is the end of the subject -/
def make (members : Text.Template.Members) (template : String) (snippets : List String) (start stop : Int)
    (pointed isInternal : Bool) : Except Failure Notice :=
  match h : Text.Template.format members template snippets with
  | .error fault => .error (.template fault)
  | .ok text =>
    if hne : snippets = [] then .error .noSubject
    else
      .ok {
        members, template, snippets, text, start, pointed, isInternal
        snippets_ne := hne
        text_eq := h
        stop := if stop = -1 then (snippets.head hne).length else stop }

/-- for templates that ask for no attributes -/
def noMembers : Text.Template.Members := fun _ _ _ => .error .emptyAccess

/-- a notice about nothing in particular -/
def plain (text : String) (h : Text.Template.Unbraced text) : Notice where
  members := noMembers
  template := text
  snippets := [""]
  snippets_ne := List.cons_ne_nil _ _
  text := text
  text_eq := Text.Template.format_text h _ _
  start := 0
  stop := 0
  pointed := true
  isInternal := false

/-- a notice about one snippet, between two texts; it is not pointed at -/
def about (lead subject tail : String) (isInternal : Bool) (hlead : Text.Template.Unbraced lead)
    (htail : Text.Template.Unbraced tail) : Notice where
  members := noMembers
  template := lead ++ "\x7b\x7d" ++ tail
  snippets := [subject]
  snippets_ne := List.cons_ne_nil _ _
  text := lead ++ subject ++ tail
  text_eq := Text.Template.format_about hlead htail _ subject
  start := 0
  stop := subject.length
  pointed := false
  isInternal := isInternal

theorem wording_plain {text : String} (h : Text.Template.Unbraced text) (f : String → String) :
    (plain text h).wording f = .ok text := by
  have hformat : Text.Template.format noMembers text [f ""] = .ok text := Text.Template.format_text h _ _
  change (Text.Template.format noMembers text [f ""]).mapError Failure.template = _
  rw [hformat]
  rfl

theorem wording_about {lead tail : String} (hlead : Text.Template.Unbraced lead) (htail : Text.Template.Unbraced tail)
    (subject : String) (isInternal : Bool) (f : String → String) :
    (about lead subject tail isInternal hlead htail).wording f = .ok (lead ++ f subject ++ tail) := by
  have hformat : Text.Template.format noMembers (lead ++ "\x7b\x7d" ++ tail) [f subject] = .ok (lead ++ f subject ++ tail) :=
    Text.Template.format_about hlead htail _ (f subject)
  change (Text.Template.format noMembers (lead ++ "\x7b\x7d" ++ tail) [f subject]).mapError Failure.template = _
  rw [hformat]
  rfl

/-- the user broke the run off -/
def interrupted : Notice := plain "keyboard interrupt" (by decide)

/-- a failure that nothing else words -/
def unknown (f : Failure) : Notice := about "unknown error: '" (f.label ++ ": " ++ f.text) "'" true (by decide) (by decide)

/-- a file that cannot be opened -/
def unopened (path : String) : Notice := about "'" path "' could not be opened" false (by decide) (by decide)

/-- a file cannot have the name that stands for what is typed -/
def reserved : Notice := plain "'<in>' is a reserved filename" (by decide)

end Notice

end LetFront
