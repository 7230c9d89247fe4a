/-
The underline of a report covers the token that the error blames. In a source whose only line breaks are line feeds a
report shows the whole line of the error. The caret stands under the first character of the token, and the tildes go on
to the end of the word there, which is not in front of the end of the token: no lexeme goes on with a blank. An error
that blames the end of a source behind its last line feed shows no line at all.

`WordEndsAt cs column stop`: the word that begins in the column of the line `cs` ends there.

Main statements: `wordEndsAt_iff`, where the underline ends is where the word does; `exists_split_of_token`, a token
stands in its line, in the column of its location; `length_le_of_token`, the underline is no shorter than the token;
`report_underlines_token`, the whole report.
-/
import Mathlib
import LetFront.Proofs.Program.Order
import LetFront.Proofs.Report.SourceLine
import LetFront.Proofs.Token.Blanks
import LetFront.Proofs.Token.LineByLine
import LetFront.Proofs.Token.Spacing

namespace LetFront

/-! ## Where words end -/

/-- where the word ends that begins in the column, whatever character stands there -/
inductive WordEndsAt (cs : List Char) (column : ℕ) : ℕ → Prop
  /-- in front of the first blank behind the column -/
  | blank {stop : ℕ} {c : Char} (hlt : column < stop)
      (hword : ∀ i d, column < i → i < stop → cs[i]? = some d → Text.isBlank d = false)
      (hc : cs[stop]? = some c) (hb : Text.isBlank c = true) : WordEndsAt cs column stop
  /-- at the end of the line, if no blank is behind the column -/
  | lineEnd (hlt : column < cs.length)
      (hword : ∀ i d, column < i → cs[i]? = some d → Text.isBlank d = false) : WordEndsAt cs column cs.length
  /-- one column on, if the column is the end of the line -/
  | behind (heq : column = cs.length) : WordEndsAt cs column (column + 1)

theorem getElem?_wordRest (cs : List Char) (column i : ℕ) :
    cs[column + 1 + i]? =
      (wordRest cs column ++ (cs.drop (column + 1)).dropWhile (!Text.isBlank ·))[i]? := by
  rw [wordRest, List.takeWhile_append_dropWhile, List.getElem?_drop]

theorem not_isBlank_of_lt {cs : List Char} {column i : ℕ} {d : Char} (hlow : column < i)
    (hhigh : i < column + 1 + (wordRest cs column).length) (hd : cs[i]? = some d) : Text.isBlank d = false := by
  obtain ⟨j, rfl⟩ := Nat.exists_eq_add_of_lt hlow
  rw [Nat.add_right_comm, getElem?_wordRest, List.getElem?_append_left (by omega)] at hd
  simpa using List.all_eq_true.1 List.all_takeWhile d (List.mem_of_getElem? hd)

theorem isBlank_of_eq {cs : List Char} {column : ℕ} {d : Char}
    (hd : cs[column + 1 + (wordRest cs column).length]? = some d) : Text.isBlank d = true := by
  rw [getElem?_wordRest, List.getElem?_append_right (Nat.le_refl _), Nat.sub_self, ← List.head?_eq_getElem?] at hd
  simpa using head?_dropWhile_stops (!Text.isBlank ·) _ d hd

/-- **The underline ends where the word does**, at any column of the line and at no other place. -/
theorem wordEndsAt_iff {cs : List Char} {column stop : ℕ} :
    WordEndsAt cs column stop ↔ column ≤ cs.length ∧ stop = column + 1 + (wordRest cs column).length := by
  have hle := length_wordRest_le cs column
  constructor
  · intro h
    -- where the rest of the word stops there is a blank, if it is in the line at all
    have hstop : ∀ d, cs[column + 1 + (wordRest cs column).length]? = some d → Text.isBlank d = true :=
      fun d => isBlank_of_eq
    cases h with
    | @blank _ c hlt hword hc hb =>
      obtain ⟨hin, -⟩ := List.getElem?_eq_some_iff.1 hc
      refine ⟨by omega, ?_⟩
      rcases Nat.lt_trichotomy stop (column + 1 + (wordRest cs column).length) with hbefore | heq | hbehind
      · rw [not_isBlank_of_lt hlt hbefore hc] at hb
        cases hb
      · exact heq
      · have hget := List.getElem?_eq_getElem (Nat.lt_trans hbehind hin)
        have hblank := hstop _ hget
        rw [hword _ _ (by omega) hbehind hget] at hblank
        cases hblank
    | lineEnd hlt hword =>
      refine ⟨hlt.le, ?_⟩
      by_contra hne
      have hget := List.getElem?_eq_getElem
        (show column + 1 + (wordRest cs column).length < cs.length by omega)
      have hblank := hstop _ hget
      rw [hword _ _ (by omega) hget] at hblank
      cases hblank
    | behind heq => omega
  · rintro ⟨hcolumn, rfl⟩
    rcases Nat.eq_or_lt_of_le hcolumn with heq | hlt
    · have hnone : (wordRest cs column).length = 0 := by omega
      rw [hnone]
      exact .behind heq
    · cases hget : cs[column + 1 + (wordRest cs column).length]? with
      | some c => exact .blank (by omega) (fun i d => not_isBlank_of_lt) hget (isBlank_of_eq hget)
      | none =>
        have hend := List.getElem?_eq_none_iff.1 hget
        have heq : column + 1 + (wordRest cs column).length = cs.length := by omega
        rw [heq]
        refine .lineEnd hlt fun i d hi hd => ?_
        obtain ⟨hin, -⟩ := List.getElem?_eq_some_iff.1 hd
        exact not_isBlank_of_lt hi (by omega) hd

/-! ## A token in its line -/

/-- a token of a layout stands in its text, and nothing stands behind the token for the end -/
theorem Layout.Grammatical.exists_split {lay : Layout} (h : lay.Grammatical) {l : Location} {t : Token}
    (ht : t ∈ lay.tokens l) :
    ∃ before after, lay.text = before ++ (t.literal.toList ++ after) ∧ t.location = l.past before ∧
      (t.kind = .endOfInput ↔ t.literal.toList ++ after = []) := by
  induction h generalizing l with
  | @last g _ =>
    obtain rfl := List.mem_singleton.1 ht
    exact ⟨g, [], by simp [text], rfl, by simp⟩
  | @next g x rest _ _ hx _ ih =>
    rcases List.mem_cons.1 ht with rfl | ht
    · exact ⟨g, rest.text, by simp [text], rfl, by simp [hx.kind_ne, hx.text_ne_nil]⟩
    · obtain ⟨before, after, htext, hlocation, hend⟩ := ih ht
      refine ⟨g ++ (x.text ++ before), after, by simp [text, htext], ?_, hend⟩
      rw [hlocation, Location.past_append, Location.past_append]

theorem Location.past_of_feed_not_mem (l : Location) {cs : List Char} (h : '\n' ∉ cs) :
    l.past cs = ⟨l.line, l.column + cs.length⟩ := by
  induction cs generalizing l with
  | nil => simp [past]
  | cons c cs ih =>
    obtain ⟨hc, hcs⟩ := not_or.1 fun hor => h (List.mem_cons.2 hor)
    have hafter : l.after c = ⟨l.line, l.column + 1⟩ := if_neg (Ne.symm hc)
    calc l.past (c :: cs) = (l.after c).past cs := rfl
      _ = ⟨l.line, l.column + 1 + cs.length⟩ := by rw [ih _ hcs, hafter]
      _ = ⟨l.line, l.column + (c :: cs).length⟩ := by
        rw [List.length_cons]
        push_cast
        rw [Int.add_assoc, Int.add_comm 1]

/-- **A token stands in its line**, in the column of its location. That of the end stands behind the last line. -/
theorem exists_split_of_token {source : String} {t : Token} (h : t ∈ tokens source) :
    ∃ (i : ℕ) (before after : List Char),
      (source.toList.splitOn '\n')[i]? = some (before ++ (t.literal.toList ++ after)) ∧
      t.location = ⟨i + 1, before.length⟩ ∧ (t.kind = .endOfInput ↔ t.literal.toList ++ after = []) ∧
      (t.kind = .endOfInput → i + 1 = (source.toList.splitOn '\n').length) := by
  rw [← source.ofList_toList] at h
  obtain ⟨i, line, hline, ⟨u, hu, rfl⟩, hlast⟩ := exists_line_of_token h
  obtain ⟨hfeed, -⟩ := Text.exists_lines_append hline
  obtain ⟨lay, hlay, rfl⟩ := exists_layout line
  rw [tokens_of_layout hlay String.toList_ofList.symm] at hu
  obtain ⟨before, after, htext, hlocation, hend⟩ := hlay.exists_split hu
  rw [htext] at hline hfeed
  have hbefore : '\n' ∉ before := fun hmem => hfeed (List.mem_append_left _ hmem)
  refine ⟨i, before, after, hline, ?_, hend, hlast⟩
  change u.location.lower i = _
  rw [hlocation, Location.past_of_feed_not_mem _ hbefore]
  simp only [Location.lower, Location.start, Location.mk.injEq]
  omega

/-- behind its first character a token has no blank -/
theorem not_isBlank_of_token {source : String} {t : Token} (h : t ∈ tokens source) :
    ∀ c ∈ t.literal.toList.tail, Text.isBlank c = false := by
  rcases isLexeme_or_end h with hlexeme | hend
  · exact hlexeme.fits.1.not_isBlank_of_mem_tail
  · have hliteral : t.literal.toList = [] := congrArg Lexeme.text hend
    rw [hliteral]
    exact List.forall_mem_nil _

/-- **The underline is no shorter than the token.** The word in the column of a token goes on over the whole of it. -/
theorem length_le_of_token {source : String} {t : Token} (h : t ∈ tokens source) (before after : List Char) :
    t.literal.length ≤ 1 + (wordRest (before ++ (t.literal.toList ++ after)) before.length).length := by
  have hblank := not_isBlank_of_token h
  rw [← String.length_toList]
  cases hliteral : t.literal.toList with
  | nil => exact Nat.zero_le _
  | cons c cs =>
    rw [hliteral] at hblank
    have hdrop : (before ++ (c :: cs ++ after)).drop (before.length + 1) = cs ++ after := by simp
    have hword : ∀ d ∈ cs, (!Text.isBlank d) = true := by simpa using hblank
    rw [wordRest, hdrop, List.takeWhile_append_of_pos hword, List.length_append, List.length_cons]
    omega

theorem eq_of_location_eq {source : String} {t u : Token} (ht : t ∈ tokens source) (hu : u ∈ tokens source)
    (h : t.location = u.location) : t = u := by
  have hdistinct : ((tokens source).map Token.location).Nodup :=
    List.pairwise_map.2 ((pairwise_tokens source).imp fun hlt => hlt.ne)
  exact List.inj_on_of_nodup_map hdistinct ht hu h

/-! ## Reports -/

/-- **What is shown for a token**: nothing for the end behind a last line feed, and else the line of the token. -/
theorem exists_shownLine_of_token {source : String} {t : Token} (hfeeds : Text.FeedsOnly source.toList)
    (hsource : source ≠ "") (ht : t ∈ tokens source) :
    ∃ (i column : ℕ) (line : List Char), t.location = ⟨i + 1, column⟩ ∧
      (source.toList.splitOn '\n')[i]? = some line ∧ column ≤ line.length ∧
      t.literal.length ≤ 1 + (wordRest line column).length ∧
      shownLine source i column =
        if t.kind = .endOfInput ∧ source.toList.getLast? = some '\n' then "" else snippet line column ++ "\n" := by
  obtain ⟨i, before, after, hline, hlocation, hend, hlast⟩ := exists_split_of_token ht
  have hhidden : (i + 1 = (source.toList.splitOn '\n').length ∧ before ++ (t.literal.toList ++ after) = []) ↔
      t.kind = .endOfInput ∧ source.toList.getLast? = some '\n' := by
    constructor
    · rintro ⟨hi, hnil⟩
      have hfeed := (Text.last_line_eq_nil_iff hline hi).1 hnil
      exact ⟨hend.2 (List.append_eq_nil_iff.1 hnil).2, hfeed.resolve_left (mt String.toList_eq_nil_iff.1 hsource)⟩
    · rintro ⟨hkind, hfeed⟩
      exact ⟨hlast hkind, (Text.last_line_eq_nil_iff hline (hlast hkind)).2 (.inr hfeed)⟩
  refine ⟨i, before.length, _, hlocation, hline, by simp, length_le_of_token ht before after, ?_⟩
  rw [shownLine, hfeeds.getElem?_lines hline]
  by_cases hcase : t.kind = .endOfInput ∧ source.toList.getLast? = some '\n'
  · rw [if_pos (hhidden.2 hcase), if_pos hcase]
  · rw [if_neg (mt hhidden.1 hcase), if_neg hcase]

theorem errors_of_empty : (Program.ofString "").errors = [] := by cbv

/-- **The underline covers the token.** Let the only line breaks of a source be line feeds. A located error of it blames
the one token that stands at the location. A report prints where and what, and then nothing if that token is the end
behind a last line feed; otherwise it prints the whole line of the location behind a margin of two spaces, and under it
a caret in the column of the location with tildes up to the end of the word there, in all as many as the token has
characters, or more. -/
theorem report_underlines_token (path : String) {source : String} {e : ParseError} {place : Location} {r : Reporter}
    (hfeeds : Text.FeedsOnly source.toList) (he : e ∈ (Program.ofString source).errors)
    (hplace : e.location = some place) (hr : r.painted = false) :
    ∃ t ∈ tokens source, t.location = place ∧ t.BlamedBy e ∧ (∀ u ∈ tokens source, u.location = place → u = t) ∧
      ∃ shown, (Reporting.report path source e).runOn r =
          (.ok (), { r with
            errors := r.errors + 1
            printed := r.printed ++ (path ++ ":" ++ place.render ++ ": error: " ++ e.message ++ "\n") ++ shown }) ∧
        (shown = "" ↔ t.kind = .endOfInput ∧ source.toList.getLast? = some '\n') ∧
        (shown ≠ "" → ∃ (i column m : ℕ) (line : List Char), place = ⟨i + 1, column⟩ ∧
          (source.toList.splitOn '\n')[i]? = some line ∧
          shown = "  " ++ String.ofList line ++ "\n" ++
            "  " ++ repeated ' ' column ++ "^" ++ repeated '~' (m - 1 : ℕ) ++ "\n" ∧
          1 ≤ m ∧ t.literal.length ≤ m ∧ WordEndsAt line column (column + m)) := by
  have hsource : source ≠ "" := by
    rintro rfl
    rw [errors_of_empty] at he
    cases he
  obtain ⟨t, ht, hblame⟩ : ∃ t ∈ tokens source, t.BlamedBy e :=
    (exists_blamed_of_mem_errors he).resolve_left fun heq => by
      rw [heq] at hplace
      cases hplace
  obtain rfl : t.location = place := Option.some.inj (hblame.location.symm.trans hplace)
  obtain ⟨i, column, line, hlocation, hline, hcolumn, hlength, hshown⟩ := exists_shownLine_of_token hfeeds hsource ht
  refine ⟨t, ht, rfl, hblame, fun u hu hul => eq_of_location_eq hu ht hul, shownLine source i column, ?_, ?_⟩
  · obtain ⟨i', column', -, hlocation', hshort, -⟩ := exists_line_of_mem_tokens ht
    obtain rfl : column' = column :=
      Int.ofNat.inj (Location.mk.inj (hlocation'.symm.trans hlocation)).2
    rw [hlocation] at hplace ⊢
    exact runOn_report path source hplace hshort hr
  by_cases hhidden : t.kind = .endOfInput ∧ source.toList.getLast? = some '\n'
  · rw [if_pos hhidden] at hshown
    exact ⟨iff_of_true hshown hhidden, fun hne => absurd hshown hne⟩
  · rw [if_neg hhidden] at hshown
    have hne : shownLine source i column ≠ "" := by
      rw [hshown, ne_eq, String.append_eq_empty_iff]
      exact fun h => absurd h.2 (by decide)
    refine ⟨iff_of_false hne hhidden, fun _ => ⟨i, column, 1 + (wordRest line column).length, line, hlocation, hline,
      ?_, Nat.le_add_right 1 _, hlength, wordEndsAt_iff.2 ⟨hcolumn, (Nat.add_assoc column 1 _).symm⟩⟩⟩
    rw [hshown, snippet, Nat.add_sub_cancel_left]

/-- a name in the second line; its word ends behind the comment sign that cuts it off -/
theorem report_underlines_token_of_name :
    ∃ e ∈ (Program.ofString "\n  foo//x y").errors, e.location = some ⟨2, 2⟩ ∧
      Text.FeedsOnly "\n  foo//x y".toList ∧ (⟨.identifier, "foo", ⟨2, 2⟩⟩ : Token).BlamedBy e ∧
      ∃ line m, ("\n  foo//x y".toList.splitOn '\n')[1]? = some line ∧ 3 ≤ m ∧ WordEndsAt line 2 (2 + m) ∧
        ((Reporting.report "f" "\n  foo//x y" e).runOn (.new false false)).2.printed =
          "f:2:2: error: unexpected token: Identifier\n" ++ ("  " ++ String.ofList line ++ "\n" ++
            "  " ++ repeated ' ' 2 ++ "^" ++ repeated '~' (m - 1 : ℕ) ++ "\n") := by
  have htokens : tokens "\n  foo//x y" = [⟨.identifier, "foo", ⟨2, 2⟩⟩, ⟨.endOfInput, "", ⟨2, 10⟩⟩] := by cbv
  have herrors := errors_of_plain htokens ⟨by decide, by decide, by decide⟩ rfl
  have he : ⟨"unexpected token: Identifier", some ⟨2, 2⟩⟩ ∈ (Program.ofString "\n  foo//x y").errors := by
    rw [herrors]
    exact List.mem_singleton_self _
  have hfeeds : Text.FeedsOnly "\n  foo//x y".toList := by decide
  obtain ⟨t, -, -, hblame, honly, shown, hrun, hempty, hshown⟩ :=
    report_underlines_token "f" hfeeds he rfl (r := .new false false) rfl
  obtain rfl := honly ⟨.identifier, "foo", ⟨2, 2⟩⟩ (by simp [htokens]) rfl
  obtain ⟨i, column, m, line, hplace, hline, rfl, -, hm, hword⟩ := hshown (mt hempty.1 (by decide))
  obtain ⟨hi, hcolumn⟩ := Location.mk.inj hplace
  obtain rfl : i = 1 := by omega
  obtain rfl : column = 2 := by omega
  refine ⟨_, he, rfl, hfeeds, hblame, line, m, hline, hm, hword, ?_⟩
  rw [hrun]
  rfl

end LetFront
