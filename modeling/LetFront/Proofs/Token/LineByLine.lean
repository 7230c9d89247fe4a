/-
A source a line at a time. No lexeme and no comment goes across a line feed, and nothing in front of a line feed depends
on what stands behind it. So every line is scanned as if it were a source by itself, and its tokens are as many lines
farther down as there are lines above it.

`lineTokens i line`: the tokens of the line number `i`, scanned by itself, without the one for the end.

Main statements: `dropLast_tokens`, the tokens of a source are those of its lines; `exists_line_of_token`, a token of a
source is one of the line it stands on, and the end is on the last line; `tokens_line_by_line`, a source with another
one below it.
-/
import LetFront.Proofs.Text.Lines
import LetFront.Proofs.Token.Concat

namespace LetFront

theorem Token.lower_lower (d d' : ℤ) (t : Token) : (t.lower d).lower d' = t.lower (d + d') := by
  simp only [lower, Location.lower, Token.mk.injEq, Location.mk.injEq, true_and, and_true]
  omega

theorem Token.lower_zero (t : Token) : t.lower 0 = t := by simp [lower, Location.lower]

/-- the tokens of the line number `i`, without the one for the end -/
def lineTokens (i : ℕ) (line : List Char) : List Token :=
  ((tokens (String.ofList line)).dropLast).map (Token.lower i)

theorem lineTokens_zero (line : List Char) : lineTokens 0 line = (tokens (String.ofList line)).dropLast := by
  have hlower : Token.lower ((0 : ℕ) : ℤ) = id := funext Token.lower_zero
  rw [lineTokens, hlower, List.map_id]

theorem lineTokens_succ (i : ℕ) (line : List Char) :
    lineTokens (i + 1) line = (lineTokens i line).map (Token.lower 1) := by
  rw [lineTokens, lineTokens, List.map_map]
  refine List.map_congr_left fun t _ => ?_
  rw [Function.comp_apply, Token.lower_lower, Nat.cast_succ]

theorem tokens_ne_nil (source : String) : tokens source ≠ [] := by
  obtain ⟨ts, last, htokens, -⟩ := exists_tokens_end source
  simp [htokens]

theorem kind_ne_of_mem_dropLast {source : String} {t : Token} (h : t ∈ (tokens source).dropLast) :
    t.kind ≠ .endOfInput := by
  obtain ⟨ts, last, htokens, hkinds, -⟩ := exists_tokens_end source
  rw [htokens, List.dropLast_concat] at h
  exact hkinds t h

/-- a line with others below it: its own tokens, then those of the lines below, farther down -/
theorem tokens_feed {line : List Char} (below : List Char) (h : '\n' ∉ line) :
    tokens (String.ofList (line ++ '\n' :: below)) =
      lineTokens 0 line ++ (tokens (String.ofList below)).map (Token.lower 1) := by
  obtain ⟨ts, last, htokens, -⟩ := exists_tokens_end (String.ofList line)
  have hsource : String.ofList (line ++ '\n' :: below) = String.ofList line ++ "\n" ++ String.ofList below := by
    apply String.toList_injective
    simp
  have hcount : (String.ofList line).toList.count '\n' = 0 := by
    rw [String.toList_ofList]
    exact List.count_eq_zero.2 h
  rw [hsource, tokens_append_feed _ htokens, hcount, lineTokens_zero, htokens, List.dropLast_concat, Nat.cast_zero,
    add_zero]

/-- **The tokens of a source are those of its lines**, every line scanned by itself. -/
theorem dropLast_tokens (cs : List Char) :
    (tokens (String.ofList cs)).dropLast = ((cs.splitOn '\n').mapIdx lineTokens).flatten := by
  induction cs using Text.feed_induction with
  | last line h =>
    rw [List.splitOn_eq_singleton h, ← lineTokens_zero]
    simp
  | above line below h ih =>
    have hbelow : ((below.splitOn '\n').mapIdx fun i line => lineTokens (i + 1) line).flatten =
        ((tokens (String.ofList below)).dropLast).map (Token.lower 1) := by
      rw [ih, List.map_flatten, map_mapIdx]
      simp only [lineTokens_succ]
    have hne : (tokens (String.ofList below)).map (Token.lower 1) ≠ [] := by simp [tokens_ne_nil]
    rw [tokens_feed below h, List.splitOn_append_cons_self_of_not_mem h, List.mapIdx_cons, List.flatten_cons, hbelow,
      List.dropLast_append_of_ne_nil hne, List.map_dropLast]

/-- **A token is one of its line.** Scanned by itself, the line that a token stands on has the token too, and it is the
last line if the token is the one for the end. -/
theorem exists_line_of_token {cs : List Char} {t : Token} (h : t ∈ tokens (String.ofList cs)) :
    ∃ (i : ℕ) (line : List Char), (cs.splitOn '\n')[i]? = some line ∧
      (∃ u ∈ tokens (String.ofList line), t = u.lower i) ∧
      (t.kind = .endOfInput → i + 1 = (cs.splitOn '\n').length) := by
  induction cs using Text.feed_induction generalizing t with
  | last line hline =>
    rw [List.splitOn_eq_singleton hline]
    exact ⟨0, line, rfl, ⟨t, h, t.lower_zero.symm⟩, fun _ => rfl⟩
  | above line below hline ih =>
    rw [tokens_feed below hline, List.mem_append] at h
    rw [List.splitOn_append_cons_self_of_not_mem hline]
    rcases h with h | h
    · rw [lineTokens_zero] at h
      exact ⟨0, line, rfl, ⟨t, List.mem_of_mem_dropLast h, t.lower_zero.symm⟩,
        fun hend => absurd hend (kind_ne_of_mem_dropLast h)⟩
    · obtain ⟨t, ht, rfl⟩ := List.mem_map.1 h
      obtain ⟨i, line', hget, ⟨u, hu, rfl⟩, hlast⟩ := ih ht
      refine ⟨i + 1, line', hget, ⟨u, hu, ?_⟩, fun hend => congrArg (· + 1) (hlast hend)⟩
      rw [Token.lower_lower, Nat.cast_succ]

/-- **Lexing goes line by line.** The tokens of a source are some that stand in front of the end, and then the one for
the end. Those in front are the tokens of the lines of the source, every line scanned by itself; and with another source
on the lines below they stay what they are, and the tokens of that follow, farther down by the lines of the first. -/
theorem tokens_line_by_line (source : String) :
    ∃ ts last, tokens source = ts ++ [last] ∧ last.kind = .endOfInput ∧ (∀ t ∈ ts, t.kind ≠ .endOfInput) ∧
      ts = ((source.toList.splitOn '\n').mapIdx lineTokens).flatten ∧
      ∀ below, tokens (source ++ "\n" ++ below) =
        ts ++ (tokens below).map (Token.lower (1 + source.toList.count '\n')) := by
  obtain ⟨ts, last, htokens, hkinds, hlast⟩ := exists_tokens_end source
  refine ⟨ts, last, htokens, hlast, hkinds, ?_, fun below => tokens_append_feed below htokens⟩
  have hlines := dropLast_tokens source.toList
  rwa [String.ofList_toList, htokens, List.dropLast_concat] at hlines

end LetFront
