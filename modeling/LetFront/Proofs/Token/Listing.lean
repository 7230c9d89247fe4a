/-
Listed tokens are read back. A token is listed on a line of its own, by its kind, its quoted literal and its location.
Quotation leaves no line break in it, and each of its parts ends where the next one begins, whatever the literal holds.
So the lines of a listing are its tokens, and each line is one token only.

Main statements: `Token.printable_render`, a token in a listing is printable; `Token.render_injective`, and is found again;
`lines_listed`, the lines of a listing; `listing_inj`, tokens that are listed in the same way are the same.
-/
import LetFront.Proofs.Report.Telling
import LetFront.Proofs.Text.Quoting

namespace LetFront

/-! ## One token -/

theorem Location.toList_render (l : Location) :
    l.render.toList = (toString l.line).toList ++ ':' :: (toString l.column).toList := by
  change (toString l.line ++ ":" ++ toString l.column).toList = _
  simp

theorem Location.printable_render (l : Location) : Text.Printable l.render := by
  have hline := Text.printable_toString l.line
  have hcolumn := Text.printable_toString l.column
  change Text.Printable (toString l.line ++ ":" ++ toString l.column)
  simp +decide only [Text.printable_append, hline, hcolumn, and_self]

theorem Kind.printable_name (k : Kind) : Text.Printable k.name := by cases k <;> decide

/-- **A token in a listing is printable**, whatever its literal holds. -/
theorem Token.printable_render (t : Token) : Text.Printable t.render := by
  have hname := t.kind.printable_name
  have hquoted := Text.printable_quoted t.literal
  have hlocation := t.location.printable_render
  unfold Token.render
  simp +decide only [Text.printable_append, hname, hquoted, hlocation, and_self]

theorem Kind.comma_not_mem_name (k : Kind) : ',' ∉ k.name.toList := by cases k <;> decide

theorem Kind.name_injective {k k' : Kind} (h : k.name = k'.name) : k = k' := by
  have hfound := congrArg Kind.ofName? h
  rw [Kind.ofName?_name, Kind.ofName?_name] at hfound
  exact Option.some.inj hfound

/-- a token in a listing, part by part -/
theorem Token.toList_render (t : Token) :
    t.render.toList = "Token(".toList ++ (t.kind.name.toList ++ ',' :: ' ' :: (Text.quotedChars t.literal.toList ++
      ',' :: ' ' :: ((toString t.location.line).toList ++ ':' :: ((toString t.location.column).toList ++ [')'])))) := by
  simp [Token.render, Text.quoted, Location.toList_render]

/-- **A token is found again** from its line. -/
theorem Token.render_injective {t t' : Token} (h : t.render = t'.render) : t = t' := by
  have htext := congrArg String.toList h
  rw [t.toList_render, t'.toList_render] at htext
  obtain ⟨hname, htext⟩ :=
    Text.append_cons_inj t.kind.comma_not_mem_name t'.kind.comma_not_mem_name (List.append_cancel_left htext)
  obtain ⟨hliteral, htext⟩ := Text.quotedChars_append_inj (List.cons.inj htext).2
  obtain ⟨hline, htext⟩ := Text.toString_append_inj (by decide) (List.cons.inj (List.cons.inj htext).2).2
  obtain ⟨hcolumn, -⟩ := Text.toString_append_inj (by decide) htext
  obtain ⟨kind, literal, line, column⟩ := t
  obtain ⟨kind', literal', line', column'⟩ := t'
  obtain rfl : kind = kind' := Kind.name_injective (String.toList_inj.1 hname)
  obtain rfl : literal = literal' := String.toList_inj.1 hliteral
  obtain rfl : line = line' := hline
  obtain rfl : column = column' := hcolumn
  rfl

/-! ## Listings -/

/-- tokens as they are listed, one a line -/
def listed (ts : List Token) : String := String.join (ts.map fun t => t.render ++ "\n")

theorem listed_cons (t : Token) (ts : List Token) : listed (t :: ts) = t.render ++ "\n" ++ listed ts := by
  rw [listed, List.map_cons, String.join_cons, listed]

/-- **The lines of a listing are its tokens.** -/
theorem lines_listed (ts : List Token) : Text.lines (listed ts).toList = ts.map fun t => t.render.toList := by
  induction ts with
  | nil => rfl
  | cons t ts ih =>
    have hshape : (listed (t :: ts)).toList = t.render.toList ++ '\n' :: (listed ts).toList := by
      simp [listed_cons]
    rw [hshape, Text.lines_append_feed, Text.endedLines_unbroken t.printable_render.unbroken, ih]
    rfl

theorem tells_listed (on : Bool) (ts : List Token) :
    Tells on (ts.forM (Reporting.print ·.render)) () (listed ts) 0 := by
  have hprints : Tells on (ts.forM (Reporting.print ·.render)) () (listed ts) (ts.map fun _ => 0).sum :=
    tells_forM fun t _ => tells_print t.render
  refine hprints.cast rfl ?_
  simp

/-- **Listed tokens are read back.** Tokens of any kinds, with any literals and any locations, are printed one a line, and
no line break stands in any of them; if two lists are printed in the same way they are the same. -/
theorem listing_inj :
    (∀ (ts : List Token) (r : Reporter),
      (ts.forM (Reporting.print ·.render)).runOn r = (.ok (), { r with printed := r.printed ++ listed ts })) ∧
    (∀ ts ts' : List Token, listed ts = listed ts' ↔ ts = ts') ∧
    (∀ ts : List Token, Text.lines (listed ts).toList = ts.map fun t => t.render.toList) ∧
    ∀ t : Token, Text.Unbroken t.render.toList := by
  refine ⟨fun ts r => tells_listed r.painted ts rfl, fun ts ts' => ⟨fun h => ?_, congrArg listed⟩, lines_listed,
    fun t => t.printable_render.unbroken⟩
  have hlines := congrArg (fun s => Text.lines s.toList) h
  simp only [lines_listed] at hlines
  have hinjective : Function.Injective fun t : Token => t.render.toList := fun t t' heq =>
    Token.render_injective (String.toList_inj.1 heq)
  exact hinjective.list_map hlines

end LetFront
