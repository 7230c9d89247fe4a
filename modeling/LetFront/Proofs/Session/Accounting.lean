/-
What calls on a session come to. A session is asked for programs and for tokens, one call after the other, each time of a
source that is given or of its own text. No call halts: the location of an error counts lines by their line feeds, and
its report looks the line up among those that end at any line break, but whatever it finds there it can point at, and it
may find nothing. A program is the one that its source spells; the reports of its errors are printed in order, each error
is counted, and nothing else happens. Tokens are given without a word.

A session is a value, and calls are made on the same one, so its name and its text are those of the first call.

Main statements: `exists_reportText_eq`, a report is a headline and at most one line of the source; `tells_mapM`, actions
with results one after the other; `calls_accounted`, what any calls give, print and count.
-/
import LetFront.Proofs.Report.Telling

namespace LetFront

variable {on : Bool}

/-! ## The text of a report -/

/-- where an error is and what it says -/
def headline (on : Bool) (path : String) (e : ParseError) : String :=
  match e.location with
  | none => emphasise on (path ++ ": ") ++ alarm on "error: " ++ e.message ++ "\n"
  | some place => emphasise on (path ++ ":" ++ place.render ++ ": ") ++ alarm on "error: " ++ e.message ++ "\n"

/-- a line of the source, pointed at in the column of the error, or nothing -/
def IsShown (on : Bool) (source : String) (e : ParseError) (shown : String) : Prop :=
  shown = "" ∨ ∃ line ∈ Text.lines source.toList, ∃ place stop, e.location = some place ∧
    shown = underlined on line place.column stop ++ "\n"

/-- **A report is a headline and at most one line of the source.** -/
theorem exists_reportText_eq {source : String} {e : ParseError} (he : e ∈ (Program.ofString source).errors)
    (path : String) : ∃ shown, IsShown on source e shown ∧ reportText on path source e = headline on path e ++ shown := by
  unfold reportText Reporting.report headline
  simp only [Reporting.runOn_bind, Reporting.runOn_countError, Reporting.runOn_get]
  cases hplace : e.location with
  | none => exact ⟨"", .inl rfl, by simp [Reporting.runOn_print, Reporter.new]⟩
  | some place =>
    obtain ⟨t, ht, rfl⟩ := mem_tokens_of_location he hplace
    obtain ⟨i, column, -, hlocation, hcolumn, -⟩ := exists_line_of_mem_tokens ht
    rw [hlocation] at hplace ⊢
    simp only [Reporting.runOn_bind, Reporting.runOn_print, pointAt_eq_ok _ hcolumn, Reporting.runOn_ofExcept_ok]
    cases hline : (Text.lines source.toList)[i]? with
    | none => exact ⟨"", .inl rfl, by simp [Reporting.runOn_pure, Reporter.new]⟩
    | some line =>
      have hshown : IsShown on source e
          (underlined on line column ((column + 1 + (wordRest line column).length : ℕ) : ℤ) ++ "\n") :=
        .inr ⟨line, List.mem_of_getElem? hline, _, _, hplace, rfl⟩
      exact ⟨_, hshown, by simp [Reporting.runOn_print, Reporter.new, String.append_assoc]⟩

/-! ## Calls -/

theorem tells_mapM {α β : Type} {xs : List α} {f : α → Reporting β} {g : α → β} {texts : α → String} {counts : α → ℕ}
    (h : ∀ x ∈ xs, Tells on (f x) (g x) (texts x) (counts x)) :
    Tells on (xs.mapM f) (xs.map g) (String.join (xs.map texts)) (xs.map counts).sum := by
  induction xs with
  | nil => exact tells_pure []
  | cons x xs ih =>
    obtain ⟨hx, hxs⟩ := List.forall_mem_cons.1 h
    rw [List.mapM_cons, List.map_cons, List.map_cons, List.map_cons, String.join_cons, List.sum_cons]
    have hrest := (ih hxs).bind (f := fun bs => pure (g x :: bs)) (tells_pure _)
    exact hx.bind (hrest.cast String.append_empty rfl)

namespace Session

/-- a call on a session; without a source it is about the text of the session -/
inductive Call where
  | parse (source? : Option String)
  | tokens (source? : Option String)
  deriving DecidableEq, Repr

/-- what a call gives back -/
inductive Answer where
  | program (p : Program)
  | tokens (ts : List Token)
  deriving DecidableEq, Repr

def Call.action (s : Session) : Call → Reporting Answer
  | parse source? => do return .program (← s.parse source?)
  | tokens source? => return .tokens (s.tokens source?)

/-- the text that a call is about -/
def Call.source (s : Session) : Call → String
  | parse source? => source?.getD s.source
  | tokens source? => source?.getD s.source

/-- what a call should give back -/
def Call.answer (s : Session) (c : Call) : Answer :=
  match c with
  | parse _ => .program (Program.ofString (c.source s))
  | tokens _ => .tokens (LetFront.tokens (c.source s))

/-- the errors that a call should report -/
def Call.errors (s : Session) (c : Call) : List ParseError :=
  match c with
  | parse _ => (Program.ofString (c.source s)).errors
  | tokens _ => []

/-- the reports that a call should print -/
def Call.reports (on : Bool) (s : Session) (c : Call) : String :=
  String.join ((c.errors s).map (reportText on s.path (c.source s)))

/-- **A call is answered**, and its errors are reported and counted. -/
theorem tells_call (s : Session) (c : Call) :
    Tells on (c.action s) (c.answer s) (c.reports on s) (c.errors s).length := by
  cases c with
  | parse source? =>
    have hparse := tells_parse on s (source?.getD s.source)
    have hreply := hparse.bind (f := fun p => pure (Answer.program p)) (tells_pure _)
    exact hreply.cast String.append_empty rfl
  | tokens source? => exact tells_pure _

/-- **Calls on a session never halt and are accounted for.** On any reporter a parse call gives the program of its
source, prints the reports of the errors in order and counts the errors; a token call gives the tokens and leaves the
reporter as it was. So do any calls one after the other, and nothing but the count and what is printed changes. Every
report begins with where its error is and what it says, and shows at most one line. -/
theorem calls_accounted (s : Session) (r : Reporter) :
    (∀ source? : Option String,
      let source := source?.getD s.source
      let p := Program.ofString source
      (s.parse source?).runOn r = (.ok p, { r with
        errors := r.errors + p.errors.length
        printed := r.printed ++ String.join (p.errors.map (reportText r.painted s.path source)) })) ∧
    (∀ source? : Option String,
      ((Call.tokens source?).action s).runOn r = (.ok (.tokens (LetFront.tokens (source?.getD s.source))), r)) ∧
    (∀ calls : List Call,
      (calls.mapM (Call.action s)).runOn r = (.ok (calls.map (Call.answer s)), { r with
        errors := r.errors + (calls.map fun c => (c.errors s).length).sum
        printed := r.printed ++ String.join (calls.map (Call.reports r.painted s)) })) ∧
    ∀ source, ∀ e ∈ (Program.ofString source).errors, ∃ shown, IsShown r.painted source e shown ∧
      reportText r.painted s.path source e = headline r.painted s.path e ++ shown := by
  refine ⟨fun source? => ?_, fun source? => rfl, fun calls => ?_, fun source e he => exists_reportText_eq he s.path⟩
  · exact tells_parse r.painted s (source?.getD s.source) rfl
  · exact tells_mapM (fun c _ => tells_call s c) rfl

end Session

end LetFront
