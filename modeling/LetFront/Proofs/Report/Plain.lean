/-
Texts without the escape character. It is not printable, so numbers, names of kinds, locations and tokens are shown without
it, and quoted texts have none; neither has a program that was read from a text, whatever the text has, for its names are
words and its errors name kinds only.

Main statements: `isPlain_of_printable`, printable texts; `isPlain_quoted`, quoting leaves no escape character;
`isPlain_display_ofString`, a program for reading.
-/
import LetFront.Program.Render
import LetFront.Proofs.Program.Blame
import LetFront.Proofs.Program.Reprint
import LetFront.Proofs.Report.Colour
import LetFront.Proofs.Token.Listing

namespace LetFront

theorem isPlain_append {s t : String} : IsPlain (s ++ t) ↔ IsPlain s ∧ IsPlain t := by
  rw [IsPlain, String.toList_append, List.mem_append, not_or]
  exact Iff.rfl

theorem IsPlain.append {s t : String} (hs : IsPlain s) (ht : IsPlain t) : IsPlain (s ++ t) := isPlain_append.2 ⟨hs, ht⟩

theorem IsPlain.between {lead s tail : String} (h : IsPlain s) (hlead : IsPlain lead) (htail : IsPlain tail) :
    IsPlain (lead ++ s ++ tail) := (hlead.append h).append htail

theorem isPlain_ofList_iff {cs : List Char} : IsPlain (String.ofList cs) ↔ '\x1b' ∉ cs := by
  rw [IsPlain, String.toList_ofList]

theorem isPlain_ofList {cs : List Char} (h : '\x1b' ∉ cs) : IsPlain (String.ofList cs) := isPlain_ofList_iff.2 h

theorem isPlain_intercalate {sep : String} (hsep : IsPlain sep) {ss : List String} (h : ∀ s ∈ ss, IsPlain s) :
    IsPlain (String.intercalate sep ss) := by
  induction ss with
  | nil =>
    rw [String.intercalate_nil]
    decide
  | cons s ss ih =>
    obtain ⟨hs, hss⟩ := List.forall_mem_cons.1 h
    cases ss with
    | nil => rwa [String.intercalate_singleton]
    | cons t ts =>
      rw [String.intercalate_cons_cons]
      exact (hs.append hsep).append (ih hss)

/-! ## Numbers, locations and quoted texts -/

theorem isPlain_nat (n : ℕ) : IsPlain (toString n) := fun hmem => absurd (Text.isNumeral_repr n _ hmem) (by decide)

theorem isPlain_int (i : ℤ) : IsPlain (toString i) := fun hmem => absurd (Text.isNumeral_toString i _ hmem) (by decide)

/-- the escape character is not printable -/
theorem isPlain_of_printable {s : String} (h : Text.Printable s) : IsPlain s := fun hmem =>
  absurd (List.all_eq_true.1 h _ hmem) (by decide)

theorem Location.isPlain_render (l : Location) : IsPlain l.render := isPlain_of_printable l.printable_render

theorem Kind.isPlain_name (k : Kind) : IsPlain k.name := isPlain_of_printable k.printable_name

/-- **Quoting leaves no escape character.** -/
theorem isPlain_quoted (s : String) : IsPlain (Text.quoted s) := isPlain_of_printable (Text.printable_quoted s)

/-- what is quoted in ASCII is printable, as what is quoted is, and so are code points -/
theorem not_mem_asciiQuotedChars (cs : List Char) : '\x1b' ∉ Text.asciiQuotedChars cs := by
  unfold Text.asciiQuotedChars
  rw [List.mem_flatMap]
  rintro ⟨c, hc, hmem⟩
  split at hmem
  · obtain rfl := List.mem_singleton.1 hmem
    have hquoted := isPlain_quoted (String.ofList cs)
    rw [Text.quoted, String.toList_ofList] at hquoted
    exact isPlain_ofList_iff.1 hquoted hc
  · have hprint := (Text.escaped_escapeCode '\'' c).all_isPrintable (.inl rfl)
    exact absurd (List.all_eq_true.1 hprint _ hmem) (by decide)

theorem Token.isPlain_render (t : Token) : IsPlain t.render := isPlain_of_printable t.printable_render

/-! ## Programs -/

theorem isPlain_message_of_mem_errors {source : String} {e : ParseError}
    (he : e ∈ (Program.ofString source).errors) : IsPlain e.message := by
  rcases exists_blamed_of_mem_errors he with rfl | ⟨t, -, hblame⟩
  · decide
  · have hname := t.kind.isPlain_name
    cases hblame with
    | unexpected => exact (show IsPlain "unexpected token: " by decide).append hname
    | mismatch k =>
      have hk := k.isPlain_name
      simp +decide only [isPlain_append, hname, hk, and_self]

theorem ParseError.isPlain_render {e : ParseError} (h : IsPlain e.message) : IsPlain e.render := by
  unfold render
  split
  · exact h
  · next l _ =>
    refine IsPlain.append ?_ h
    have hline := isPlain_int l.line
    have hcolumn := isPlain_int l.column
    change IsPlain ("At line=" ++ toString l.line ++ ", col=" ++ toString l.column ++ ": ")
    simp +decide only [isPlain_append, hline, hcolumn, and_self]

theorem isPlain_of_isName {name : String} (h : IsName name) : IsPlain name := fun hmem =>
  absurd (h.wordChars _ hmem) (by decide)

theorem isPlain_replicate {c : Char} (hc : c ≠ '\x1b') (n : ℕ) : IsPlain (String.ofList (List.replicate n c)) :=
  isPlain_ofList fun h => hc (List.eq_of_mem_replicate h).symm

theorem isPlain_block {pad : String} (hpad : IsPlain pad) {items : List String} (h : ∀ s ∈ items, IsPlain s) :
    IsPlain (block pad items) := by
  unfold block
  split
  · decide
  · refine ((isPlain_intercalate (by decide) ?_).append (by decide)).append hpad
    intro s hs
    obtain ⟨t, ht, rfl⟩ := List.mem_map.1 hs
    exact (show IsPlain "\n" by decide).append (h t ht)

theorem isPlain_display_binding {b : Binding} (hkeyword : IsPlain b.keyword.literal) (hname : IsPlain b.name.literal)
    (level : ℤ) : IsPlain (b.node.display level) := by
  have hindent : IsPlain (indentation level) := isPlain_replicate (by decide) _
  change IsPlain (indentation level ++ "LetStatement" ++ "(" ++
    (b.keyword.literal ++ " " ++ b.name.literal ++ " = " ++ "..." ++ ";") ++ ")")
  simp +decide only [isPlain_append, hindent, hkeyword, hname, and_self]

/-- **A program that was read is shown without the escape character**, whatever it was read from. -/
theorem isPlain_display_ofString (source : String) : IsPlain (Program.ofString source).display := by
  have hstatements : ∀ s ∈ Node.displayAll 1 ((Program.ofString source).statements.map Binding.node), IsPlain s := by
    rw [Node.displayAll_eq_map, List.map_map]
    intro s hs
    obtain ⟨b, hb, rfl⟩ := List.mem_map.1 hs
    obtain ⟨hkeyword, hname⟩ := literal_of_mem_statements hb
    exact isPlain_display_binding (hkeyword ▸ (by decide)) (isPlain_of_isName hname) 1
  have herrors : ∀ s ∈ (Program.ofString source).errors.map (indentation 0 ++ "    " ++ ·.render), IsPlain s := by
    intro s hs
    obtain ⟨e, he, rfl⟩ := List.mem_map.1 hs
    exact (show IsPlain (indentation 0 ++ "    ") by decide).append
      (ParseError.isPlain_render (isPlain_message_of_mem_errors he))
  have hpad : IsPlain (indentation 0) := by decide
  have hblock := isPlain_block hpad hstatements
  have hblock' := isPlain_block hpad herrors
  change IsPlain (indentation 0 ++ "Program(statements=[" ++
    block (indentation 0) (Node.displayAll 1 ((Program.ofString source).statements.map Binding.node)) ++
    "], errors=[" ++ block (indentation 0) ((Program.ofString source).errors.map (indentation 0 ++ "    " ++ ·.render)) ++
    "])")
  simp +decide only [isPlain_append, hblock, hblock', and_self]

end LetFront
