/-
Indented texts. A text is indented by spaces in front of each of its lines, the lines being those between its line feeds.
That is the same as spaces in front of the text and behind each line feed, so texts one behind the other are indented
part by part.

Main statements: `indented_eq`, where the spaces stand; `spread_append`, part by part; `indented_indented`, indenting twice
is indenting once by the sum.
-/
import LetFront.Proofs.Text.Lines

namespace LetFront.Text

def spaces (n : ℕ) : String := String.ofList (List.replicate n ' ')

/-- a text with `n` spaces in front of each of its lines -/
def indented (n : ℕ) (s : String) : String :=
  String.intercalate "\n" ((s.toList.splitOn '\n').map fun line => spaces n ++ String.ofList line)

/-- a text with `n` spaces behind each of its line feeds -/
def spread (n : ℕ) (s : String) : String :=
  String.ofList (s.toList.flatMap fun c => if c = '\n' then '\n' :: List.replicate n ' ' else [c])

variable {m n : ℕ} {s t : String}

theorem spread_append : spread n (s ++ t) = spread n s ++ spread n t := by
  rw [spread, String.toList_append, List.flatMap_append, String.ofList_append, spread, spread]

theorem spread_feed : spread n "\n" = "\n" ++ spaces n := by
  rw [← String.toList_inj]
  simp [spread, spaces]

theorem spread_of_feed_not_mem (h : '\n' ∉ s.toList) : spread n s = s := by
  have hkeep : ∀ c ∈ s.toList, (if c = '\n' then '\n' :: List.replicate n ' ' else [c]) = [c] := by
    intro c hc
    rw [if_neg]
    rintro rfl
    exact h hc
  rw [spread, List.flatMap_congr hkeep, List.flatMap_singleton', String.ofList_toList]

theorem spread_spaces : spread m (spaces n) = spaces n :=
  spread_of_feed_not_mem (by simp [spaces])

theorem spaces_append : spaces m ++ spaces n = spaces (m + n) := by
  rw [spaces, spaces, ← String.ofList_append, List.replicate_append_replicate, spaces]

theorem spread_intercalate {sep : String} {ss : List String} (hsep : '\n' ∉ sep.toList) :
    spread n (String.intercalate sep ss) = String.intercalate sep (ss.map (spread n)) := by
  induction ss with
  | nil => rfl
  | cons s ss ih =>
    cases ss with
    | nil => rfl
    | cons t ts =>
      rw [List.map_cons, List.map_cons, String.intercalate_cons_cons, String.intercalate_cons_cons, spread_append,
        spread_append, spread_of_feed_not_mem hsep, ih, List.map_cons]

/-- **The spaces stand in front and behind each line feed.** -/
theorem indented_eq (n : ℕ) (s : String) : indented n s = spaces n ++ spread n s := by
  obtain ⟨cs, rfl⟩ : ∃ cs, s = String.ofList cs := ⟨s.toList, s.ofList_toList.symm⟩
  have hkeep : ∀ {line : List Char}, '\n' ∉ line → spread n (String.ofList line) = String.ofList line := fun hline =>
    spread_of_feed_not_mem (by rwa [String.toList_ofList])
  rw [indented, String.toList_ofList]
  induction cs using feed_induction with
  | last line hline =>
    rw [List.splitOn_eq_singleton hline, List.map_singleton, String.intercalate_singleton, hkeep hline]
  | above line below hline ih =>
    have hbelow : (below.splitOn '\n').map (fun line => spaces n ++ String.ofList line) ≠ [] := by
      simp [List.splitOn_ne_nil]
    have hfeed : String.ofList ('\n' :: below) = "\n" ++ String.ofList below := by
      rw [← String.toList_inj]
      simp
    rw [List.splitOn_append_cons_self_of_not_mem hline, List.map_cons, String.intercalate_cons_of_ne_nil hbelow, ih,
      String.ofList_append, hfeed, spread_append, spread_append, spread_feed, hkeep hline]
    simp only [String.append_assoc]

theorem spread_spread (m n : ℕ) (s : String) : spread m (spread n s) = spread (m + n) s := by
  rw [spread, spread, String.toList_ofList, List.flatMap_assoc, spread]
  congr 1
  refine List.flatMap_congr fun c _ => ?_
  by_cases hc : c = '\n'
  · have hspaces : (List.replicate n ' ').flatMap
        (fun c => if c = '\n' then '\n' :: List.replicate m ' ' else [c]) = List.replicate n ' ' := by
      simp [List.flatMap_replicate]
    simp only [hc, ↓reduceIte, List.flatMap_cons, hspaces, List.cons_append, List.replicate_append_replicate]
  · simp [hc]

/-- **Indenting twice** is indenting by the sum. -/
theorem indented_indented (m n : ℕ) (s : String) : indented m (indented n s) = indented (m + n) s := by
  rw [indented_eq, indented_eq, indented_eq, spread_append, spread_spaces, spread_spread, ← String.append_assoc,
    spaces_append]

end LetFront.Text
