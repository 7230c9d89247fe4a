/-
Carriage returns in front of line feeds. A carriage return there is the last character of its line. It is white space or
the end of a comment, no lexeme goes on with it, and the line feed behind it sets the column back. So a source reads the
same whether its lines end in LF or in CR LF: the same tokens at the same locations, and hence the same program.

`withReturns cs`: the text with a carriage return put in front of every line feed, whatever stands there already.

Main statements: `Location.past_withReturns`, walking arrives at the same place; `IsGap.withReturns`, a gap stays a gap;
`Layout.Grammatical.withReturns` and `Layout.tokens_withReturns`, the layout keeps its lexemes and tokens;
`returns_are_invisible`, the tokens and the program of a source.
-/
import Mathlib
import LetFront.Proofs.Program.Simulation
import LetFront.Proofs.Token.Blanks
import LetFront.Proofs.Token.Concat

namespace LetFront

/-! ## Texts -/

/-- every line feed with a carriage return in front of it -/
def withReturns (cs : List Char) : List Char := cs.flatMap fun c => if c = '\n' then ['\r', '\n'] else [c]

theorem withReturns_append (as bs : List Char) : withReturns (as ++ bs) = withReturns as ++ withReturns bs :=
  List.flatMap_append

theorem withReturns_feed (cs : List Char) : withReturns ('\n' :: cs) = '\r' :: '\n' :: withReturns cs := rfl

theorem withReturns_cons {c : Char} (cs : List Char) (h : c ≠ '\n') : withReturns (c :: cs) = c :: withReturns cs := by
  rw [withReturns, List.flatMap_cons, if_neg h]
  rfl

theorem withReturns_of_feed_not_mem {cs : List Char} (h : '\n' ∉ cs) : withReturns cs = cs := by
  induction cs with
  | nil => rfl
  | cons c cs ih =>
    obtain ⟨hc, hcs⟩ := not_or.1 fun hor => h (List.mem_cons.2 hor)
    rw [withReturns_cons cs (Ne.symm hc), ih hcs]

/-- such a text begins as it did, or with a new carriage return -/
theorem mem_head?_withReturns {cs : List Char} {c : Char} (h : c ∈ (withReturns cs).head?) :
    c ∈ cs.head? ∨ c = '\r' := by
  cases cs with
  | nil => cases h
  | cons d cs =>
    by_cases hd : d = '\n'
    · subst hd
      rw [withReturns_feed] at h
      cases h
      exact .inr rfl
    · rw [withReturns_cons cs hd] at h
      exact .inl h

/-- **Walking arrives at the same place.** The column that a carriage return takes up is given back by its line feed. -/
theorem Location.past_withReturns (l : Location) (cs : List Char) : l.past (withReturns cs) = l.past cs := by
  induction cs generalizing l with
  | nil => rfl
  | cons c cs ih =>
    by_cases hc : c = '\n'
    · subst hc
      have hline : (l.after '\r').after '\n' = l.after '\n' := by simp [after]
      calc l.past (withReturns ('\n' :: cs)) = ((l.after '\r').after '\n').past (withReturns cs) := rfl
        _ = (l.after '\n').past cs := by rw [hline, ih]
    · rw [withReturns_cons cs hc]
      exact ih (l.after c)

/-! ## Gaps -/

theorem StartsGap.of_withReturns {cs : List Char} (h : StartsGap (withReturns cs)) : StartsGap cs := by
  cases cs with
  | nil => exact h
  | cons c cs =>
    by_cases hc : c = '\n'
    · subst hc
      exact .inl ⟨'\n', rfl, by decide⟩
    · rw [withReturns_cons cs hc] at h
      rcases h with hspace | ⟨after, h⟩
      · exact .inl hspace
      · obtain ⟨rfl, htail⟩ := List.cons.inj h
        have hhead : '/' ∈ (withReturns cs).head? := by
          rw [← htail]
          rfl
        have hslash := (mem_head?_withReturns hhead).resolve_right (by decide)
        obtain ⟨ds, rfl⟩ := List.head?_eq_some_iff.1 hslash
        exact .inr ⟨ds, rfl⟩

/-- **A gap stays a gap.** The new carriage return behind a comment is the last character of the comment, so no line feed
may stand just behind the gap, where that character would not belong to it. -/
theorem IsGap.withReturns {g after : List Char} (h : IsGap g after) (ha : '\n' ∉ after.head?) :
    IsGap (withReturns g) (withReturns after) := by
  induction h with
  | nil => exact .nil _
  | @space c g after hc _ ih =>
    by_cases hfeed : c = '\n'
    · subst hfeed
      exact .space (by decide) (.space (by decide) (ih ha))
    · rw [withReturns_cons g hfeed]
      exact .space hc (ih ha)
  | @comment body g after hb hend _ ih =>
    have hbody : '\n' ∉ '/' :: '/' :: body := by
      simp only [List.mem_cons, not_or]
      exact ⟨by decide, by decide, fun hmem => hb _ hmem rfl⟩
    have hopen : LetFront.withReturns ('/' :: '/' :: (body ++ g)) =
        '/' :: '/' :: (body ++ LetFront.withReturns g) := by
      have hsplit := withReturns_append ('/' :: '/' :: body) g
      rwa [withReturns_of_feed_not_mem hbody] at hsplit
    rw [hopen]
    cases g with
    | nil =>
      have hafter : after = [] := by
        cases after with
        | nil => rfl
        | cons c after => exact absurd (congrArg some (hend c rfl)) ha
      subst hafter
      exact .comment hb (by simp [LetFront.withReturns]) (.nil _)
    | cons c g =>
      obtain rfl : c = '\n' := hend c rfl
      have hfeed : IsGap ('\n' :: LetFront.withReturns g) (LetFront.withReturns after) := by
        cases ih ha with
        | space _ hg => exact hg
      have hbody' : ∀ c ∈ body ++ ['\r'], c ≠ '\n' := by
        intro c hc
        rcases List.mem_append.1 hc with hc | hc
        · exact hb c hc
        · rw [List.mem_singleton.1 hc]
          decide
      have hcomment := IsGap.comment hbody' (by simp) hfeed
      rwa [List.append_assoc] at hcomment

/-! ## Layouts -/

namespace Layout

/-- the layout with carriage returns in its gaps -/
def withReturns : Layout → Layout
  | last g => last (LetFront.withReturns g)
  | next g x rest => next (LetFront.withReturns g) x rest.withReturns

theorem tokens_withReturns (lay : Layout) (l : Location) : lay.withReturns.tokens l = lay.tokens l := by
  induction lay generalizing l with
  | last g => rw [withReturns, tokens, tokens, Location.past_withReturns]
  | next g x rest ih => rw [withReturns, tokens, tokens, Location.past_withReturns, ih]

theorem Grammatical.text_withReturns {lay : Layout} (h : lay.Grammatical) :
    lay.withReturns.text = LetFront.withReturns lay.text := by
  induction h with
  | last => rfl
  | next _ hs hx _ ih =>
    rw [Layout.withReturns, text, text, withReturns_append, withReturns_append,
      withReturns_of_feed_not_mem (hx.feed_not_mem hs), ih]

theorem Grammatical.withReturns {lay : Layout} (h : lay.Grammatical) : lay.withReturns.Grammatical := by
  induction h with
  | last hg => exact .last (hg.withReturns (by simp))
  | @next g x rest hg hs hx hr ih =>
    have htext : x.text ++ rest.withReturns.text = LetFront.withReturns (x.text ++ rest.text) := by
      rw [withReturns_append, withReturns_of_feed_not_mem (hx.feed_not_mem hs), hr.text_withReturns]
    refine .next ?_ ?_ ?_ ih
    · rw [htext]
      exact hg.withReturns fun hfeed => hs (.inl ⟨'\n', hfeed, by decide⟩)
    · rw [htext]
      exact fun hstart => hs hstart.of_withReturns
    · rw [hr.text_withReturns]
      refine hx.of_head? fun c hc => (mem_head?_withReturns hc).imp_right ?_
      rintro rfl
      decide

end Layout

/-! ## Sources -/

/-- **Carriage returns in front of line feeds are invisible.** With one put in front of every line feed, a source has the
same tokens, all at the same locations, that of the end included, and it reads as the same program. -/
theorem returns_are_invisible (source : String) :
    tokens (String.ofList (withReturns source.toList)) = tokens source ∧
      Program.ofString (String.ofList (withReturns source.toList)) = Program.ofString source := by
  obtain ⟨lay, hlay, htext⟩ := exists_layout source.toList
  have htokens : tokens (String.ofList (withReturns source.toList)) = tokens source := by
    rw [tokens_of_layout hlay htext, ← lay.tokens_withReturns]
    refine tokens_of_layout hlay.withReturns ?_
    rw [hlay.text_withReturns, htext, String.toList_ofList]
  exact ⟨htokens, ofSource_eq_of_drain_eq htokens⟩

/-- a comment, a carriage return that was there before, and the end behind the last line feed -/
example : tokens "x//\r\n\r\r\n1\r\n" = tokens "x//\n\r\n1\n" := by cbv

end LetFront
