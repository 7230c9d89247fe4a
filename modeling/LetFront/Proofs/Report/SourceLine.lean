/-
The line that a report of a parse error shows. The location of an error counts lines by their line feeds, and the
report looks its line up among those that end at any line break. So it shows the line of the error if no other break
stands in this line or in those above, but for a carriage return in front of a line feed above; and otherwise a part of
this line or of one above, which seldom is the same. The caret is in the column of the error under any line.

Main statements: `pointAt_natCast`, pointing shows the line of that number, if there is one; `runOn_report`, a report
prints where, what and the line, and never halts; `report_shows_line`, when that is the line of the error.
-/
import Mathlib
import LetFront.Proofs.Program.Blame
import LetFront.Proofs.Text.Lines
import LetFront.Proofs.Token.Tiling
import LetFront.Report.Reporter

namespace LetFront

/-! ## Pointing at a place -/

/-- the characters behind the one in `column` that belong to its word -/
def wordRest (line : List Char) (column : ℕ) : List Char := (line.drop (column + 1)).takeWhile (!Text.isBlank ·)

theorem length_wordRest_le (cs : List Char) (column : ℕ) :
    (wordRest cs column).length ≤ cs.length - (column + 1) := by
  have hle := (List.takeWhile_sublist (!Text.isBlank ·) (l := cs.drop (column + 1))).length_le
  rwa [List.length_drop] at hle

/-- a line behind its margin, and under it a caret in `column` with a tilde for every other character of the word -/
def snippet (line : List Char) (column : ℕ) : String :=
  "  " ++ String.ofList line ++ "\n" ++ "  " ++ repeated ' ' column ++ "^" ++ repeated '~' (wordRest line column).length

theorem wordEnd_natCast (line : List Char) (column : ℕ) :
    wordEnd line column = .ok ((column + 1 + (wordRest line column).length : ℕ) : ℤ) := by
  unfold wordEnd
  have hfront : ¬ (column + 1 : ℤ) < -line.length := by omega
  have hnext : ¬ (column + 1 : ℤ) < 0 := by omega
  have hcast : (column + 1 : ℤ).toNat = column + 1 := by omega
  simp only [hfront, hnext, ↓reduceIte, hcast, wordRest]
  push_cast
  rfl

/-- unpainted, the parts of a line make up the line again -/
theorem underlined_off (line : List Char) (column n : ℕ) :
    underlined false line column ((column + 1 + n : ℕ) : ℤ) =
      "  " ++ String.ofList line ++ "\n" ++ "  " ++ repeated ' ' column ++ "^" ++ repeated '~' n := by
  have hstop : max ((column + 1 + n : ℕ) : ℤ) (column + 1) = (column + 1 + n : ℕ) := by omega
  have htildes : (((column + 1 + n : ℕ) : ℤ) - column - 1).toNat = n := by omega
  have hline : Text.takeTo line column ++ Text.slice line column ((column + 1 + n : ℕ) : ℤ) ++
      Text.dropTo line ((column + 1 + n : ℕ) : ℤ) = line := by
    rw [Text.takeTo_append_slice line (by omega : column ≤ column + 1 + n), Text.takeTo_append_dropTo]
  have hjoin := congrArg String.ofList hline
  rw [String.ofList_append, String.ofList_append] at hjoin
  unfold underlined
  simp only [hstop, htildes, Int.toNat_natCast, alarm, paint, Bool.false_eq_true, ↓reduceIte]
  rw [← hjoin]
  simp only [String.append_assoc]

theorem isCount_natCast {room n : ℕ} (h : n ≤ room) : isCount room n = true := by
  unfold isCount
  simp [h]

/-- pointing at a column of the source, on a line that is counted from one, never fails -/
theorem pointAt_eq_ok (on : Bool) {source : String} {column : ℕ} (hcolumn : column ≤ source.length) (i : ℕ) :
    pointAt on source ⟨i + 1, column⟩ =
      .ok ((Text.lines source.toList)[i]?.map fun line =>
        underlined on line column ((column + 1 + (wordRest line column).length : ℕ) : ℤ)) := by
  unfold pointAt
  cases hline : (Text.lines source.toList)[i]? with
  | none =>
    have hle := List.getElem?_eq_none_iff.1 hline
    exact if_neg (by simp only; omega)
  | some line =>
    obtain ⟨hlt, -⟩ := List.getElem?_eq_some_iff.1 hline
    have hle : (i + 1 : ℤ) ≤ (Text.lines source.toList).length := by omega
    have hsub : (i + 1 - 1 : ℤ) = i := by omega
    have hword : (wordRest line column).length ≤ source.length := by
      have hshort := length_wordRest_le line column
      have hpart := (Text.sublist_of_mem_lines (List.mem_of_getElem? hline)).length_le
      rw [String.length_toList] at hpart
      omega
    have htildes : max ((column + 1 + (wordRest line column).length : ℕ) : ℤ) (column + 1) - column - 1 =
        ((wordRest line column).length : ℕ) := by omega
    simp only [hle, ↓reduceIte, hsub, Text.elementAt_natCast hline, wordEnd_natCast, diagnose, htildes,
      isCount_natCast hcolumn, isCount_natCast hword, Bool.and_self]
    rfl

/-- **Pointing shows a line.** Of a source that has the line of that number, this line is shown, and else nothing. -/
theorem pointAt_natCast {source : String} {column : ℕ} (hcolumn : column ≤ source.length) (i : ℕ) :
    pointAt false source ⟨i + 1, column⟩ =
      .ok ((Text.lines source.toList)[i]?.map fun line => snippet line column) := by
  simp only [pointAt_eq_ok false hcolumn, underlined_off]
  rfl

/-! ## Reports -/

/-- what a report of a located error prints under its first line -/
def shownLine (source : String) (i column : ℕ) : String :=
  match (Text.lines source.toList)[i]? with
  | none => ""
  | some line => snippet line column ++ "\n"

/-- **A report says where and what, and shows a line.** It counts the error and never halts. -/
theorem runOn_report (path source : String) {e : ParseError} {i column : ℕ}
    (hplace : e.location = some ⟨i + 1, column⟩) (hcolumn : column ≤ source.length) {r : Reporter}
    (hr : r.painted = false) :
    (Reporting.report path source e).runOn r =
      (.ok (), { r with
        errors := r.errors + 1
        printed := r.printed ++ (path ++ ":" ++ Location.render ⟨i + 1, column⟩ ++ ": error: " ++ e.message ++ "\n") ++
          shownLine source i column }) := by
  unfold Reporting.report shownLine
  simp only [Reporting.runOn_bind, Reporting.runOn_countError, Reporting.runOn_get, hplace, hr, Reporting.runOn_print,
    pointAt_natCast hcolumn, Reporting.runOn_ofExcept_ok]
  cases (Text.lines source.toList)[i]? with
  | none => simp [Reporting.runOn_pure, emphasise, alarm, paint, String.append_assoc]
  | some line => simp [Reporting.runOn_print, emphasise, alarm, paint, String.append_assoc]

/-! ## The line of an error -/

/-- the location of a token is a column of a line between the line feeds, and no further than the source is long -/
theorem exists_line_of_mem_tokens {source : String} {t : Token} (h : t ∈ tokens source) :
    ∃ (i column : ℕ) (line : List Char), t.location = ⟨i + 1, column⟩ ∧ column ≤ source.length ∧
      (source.toList.splitOn '\n')[i]? = some line := by
  obtain ⟨p, hp, hplace⟩ := exists_offset_of_mem_tokens h
  have hfeeds : (source.toList.take p).count '\n' < (source.toList.splitOn '\n').length := by
    have hle := (List.take_sublist p source.toList).count_le '\n'
    rw [Text.length_splitOn_feed]
    omega
  have hstart : lineStart (source.toList.take p) ≤ p := by
    have hle := lineStart_le (source.toList.take p)
    rw [List.length_take] at hle
    omega
  have hcolumn : p - lineStart (source.toList.take p) ≤ source.length := by
    rw [String.length_toList] at hp
    omega
  refine ⟨_, p - lineStart (source.toList.take p), _, ?_, hcolumn, List.getElem?_eq_getElem hfeeds⟩
  rw [hplace, placeAt, Nat.cast_sub hstart, Int.add_comm]

/-- the error of a text with one token, which neither begins nor ends a statement -/
theorem errors_of_plain {source : String} {u last : Token} (h : tokens source = [u, last]) (hu : u.Plain)
    (hlast : last.kind = .endOfInput) :
    (Program.ofString source).errors = [⟨"unexpected token: " ++ u.kind.name, some u.location⟩] := by
  have hend : AtEnd [last] := by
    intro t ht
    cases ht
    exact hlast
  have hdrop : Dropped [u] [last] := .upTo (List.forall_mem_singleton.2 hu) fun t ht => .inl (hend t ht)
  have hdiv : Divides [last] [([u], .error ⟨"unexpected token: " ++ u.kind.name, some u.location⟩)] :=
    .cons (.stray hu.2.1 hdrop) .nil
  exact (ofSource_of_divides hdiv hend (List.forall_mem_singleton.2 hu.2.2) h).2

/-- **When a report shows the line of its error.** A located error of a text is in a column of one of the lines between
its line feeds. The report prints where and what, and then, if it shows a line at all, that line with the caret in that
column. The line it shows is the line of the error if and only if nothing breaks that, and the lines above it are one
line each, or are several of which one happens to be the same. -/
theorem report_shows_line (path : String) {source : String} {e : ParseError} {place : Location} {r : Reporter}
    (he : e ∈ (Program.ofString source).errors) (hplace : e.location = some place) (hr : r.painted = false) :
    ∃ (i column : ℕ) (line : List Char), place = ⟨i + 1, column⟩ ∧ (source.toList.splitOn '\n')[i]? = some line ∧
      (Reporting.report path source e).runOn r =
        (.ok (), { r with
          errors := r.errors + 1
          printed := r.printed ++ (path ++ ":" ++ place.render ++ ": error: " ++ e.message ++ "\n") ++
            shownLine source i column }) ∧
      ∀ shown, (Text.lines source.toList)[i]? = some shown →
        (shown = line ↔ Text.Unbroken line ∧ ((∀ l ∈ (source.toList.splitOn '\n').take i, Text.OneLine l) ∨
          (((source.toList.splitOn '\n').take i).flatMap Text.endedLines)[i]? = some line)) := by
  obtain ⟨t, ht, rfl⟩ := mem_tokens_of_location he hplace
  obtain ⟨i, column, line, hlocation, hcolumn, hline⟩ := exists_line_of_mem_tokens ht
  rw [hlocation] at hplace ⊢
  refine ⟨i, column, line, rfl, hline, runOn_report path source hplace hcolumn hr, ?_⟩
  intro shown hshown
  exact Text.getElem?_lines_eq_iff hline hshown

/-- a name without a let, in a text of one line -/
theorem report_shows_line_of_name :
    ∃ e ∈ (Program.ofString "x").errors, e.location = some ⟨1, 0⟩ ∧
      ((Reporting.report "f" "x" e).runOn (.new false false)).2.printed =
        "f:1:0: error: unexpected token: Identifier\n  x\n  ^\n" := by
  have htokens : tokens "x" = [⟨.identifier, "x", ⟨1, 0⟩⟩, ⟨.endOfInput, "", ⟨1, 1⟩⟩] := by cbv
  have herrors := errors_of_plain htokens ⟨by decide, by decide, by decide⟩ rfl
  have he : ⟨"unexpected token: Identifier", some ⟨1, 0⟩⟩ ∈ (Program.ofString "x").errors := by
    rw [herrors]
    exact List.mem_singleton_self _
  refine ⟨_, he, rfl, ?_⟩
  obtain ⟨i, column, line, hplace, -, hrun, -⟩ := report_shows_line "f" he rfl (r := .new false false) rfl
  obtain ⟨hi, hcolumn⟩ := Location.mk.inj hplace
  obtain rfl : i = 0 := by omega
  obtain rfl : column = 0 := by omega
  rw [hrun]
  decide

/-- **A form feed moves the lines.** The line of the error holds a name, and the report shows an empty line. -/
theorem report_shows_other_line :
    ∃ e ∈ (Program.ofString "\x0c\nx").errors, e.location = some ⟨2, 0⟩ ∧
      ("\x0c\nx".toList.splitOn '\n')[1]? = some ['x'] ∧
      ((Reporting.report "f" "\x0c\nx" e).runOn (.new false false)).2.printed =
        "f:2:0: error: unexpected token: Identifier\n  \n  ^\n" := by
  have htokens : tokens "\x0c\nx" = [⟨.identifier, "x", ⟨2, 0⟩⟩, ⟨.endOfInput, "", ⟨2, 1⟩⟩] := by cbv
  refine ⟨⟨"unexpected token: Identifier", some ⟨2, 0⟩⟩, ?_, rfl, rfl, ?_⟩
  · rw [errors_of_plain htokens ⟨by decide, by decide, by decide⟩ rfl]
    exact List.mem_singleton_self _
  · rw [@runOn_report "f" _ _ 1 0 rfl (Nat.zero_le _) (.new false false) rfl]
    decide

end LetFront
