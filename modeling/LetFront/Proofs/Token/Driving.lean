/-
A scanner stays in place, however it is driven. Whatever is called, in any order and in any state, the scanner walks over
some characters from the front of what it has still to read, and moves its offset and its location by exactly these. So
the offset is always one of the source, the location is its place, and neither goes back. A scanner is finished only at
the end; from there it does not move, and gives the token for the end again whenever that is asked for.

`Walk cs s s'`: from `s` to `s'` a scanner has walked over the characters `cs`.

Main statements: `Call.exists_walk`, every call is a walk, from any scanner; `exists_walk_afterCalls`, and so is every
run of calls; `Call.eq_endToken`, there is one token for the end; `driven_in_place`, what holds in every state that calls
can reach.
-/
import LetFront.Proofs.Token.Tiling
import LetFront.Token.Call

namespace LetFront

/-- the token for the end of a source -/
def endToken (source : String) : Token := ⟨.endOfInput, "", placeAt source.toList source.toList.length⟩

namespace Scanner

/-- from `s` to `s'` a scanner has walked over `cs`; if it finished on the way, it was at the end -/
structure Walk (cs : List Char) (s s' : Scanner) : Prop where
  rest : s.rest = cs ++ s'.rest
  offset : s'.offset = s.offset + cs.length
  location : s'.location = s.location.past cs
  finished : s'.finished = s.finished ∨ s'.finished = true ∧ s'.rest = []

theorem Walk.refl (s : Scanner) : Walk [] s s := ⟨rfl, rfl, rfl, .inl rfl⟩

theorem Walk.trans {as bs : List Char} {s t u : Scanner} (h : Walk as s t) (h' : Walk bs t u) : Walk (as ++ bs) s u where
  rest := by rw [h.rest, h'.rest, List.append_assoc]
  offset := by rw [h'.offset, h.offset, List.length_append, Nat.add_assoc]
  location := by rw [h'.location, h.location, Location.past_append]
  finished := by
    rcases h'.finished with hu | hu
    · rcases h.finished with ht | ⟨ht, hend⟩
      · exact .inl (hu.trans ht)
      · -- where nothing is left to read, nothing is left after a walk
        rw [h'.rest] at hend
        exact .inr ⟨hu.trans ht, (List.append_eq_nil_iff.1 hend).2⟩
    · exact .inr hu

/-! ## Every call is a walk -/

theorem walk_advance (s : Scanner) (n : ℕ) : Walk (s.rest.take n) s (s.advance n) :=
  ⟨(List.take_append_drop n s.rest).symm, rfl, rfl, .inl rfl⟩

theorem exists_walk_read (s : Scanner) : ∃ cs, Walk cs s s.read.2 := by
  have hgap : Walk _ s s.skipGap := walk_advance s _
  have hlexeme : ∃ cs, Walk cs s.skipGap s.skipGap.readLexeme.2 := by
    unfold readLexeme
    split
    · next hend => exact ⟨[], rfl, rfl, rfl, .inr ⟨rfl, hend⟩⟩
    · exact ⟨_, walk_advance _ _⟩
  obtain ⟨cs, hcs⟩ := hlexeme
  exact ⟨_, hgap.trans hcs⟩

/-- what is pulled is what is read -/
theorem read_of_next? {s s' : Scanner} {t : Token} (h : s.next? = some (t, s')) : t = s.read.1 ∧ s' = s.read.2 := by
  unfold next? at h
  split at h
  · cases h
  · rw [Option.some.inj h]
    exact ⟨rfl, rfl⟩

theorem exists_walk_of_next? {s s' : Scanner} {t : Token} (h : s.next? = some (t, s')) : ∃ cs, Walk cs s s' := by
  obtain ⟨-, rfl⟩ := read_of_next? h
  exact exists_walk_read s

theorem exists_walk_drain (s : Scanner) : ∃ cs, Walk cs s (TokenSource.drain s).2 := by
  fun_induction TokenSource.drain s with
  | case1 s _ => exact ⟨[], Walk.refl s⟩
  | case2 s t s' h ih =>
    obtain ⟨as, has⟩ := exists_walk_of_next? h
    obtain ⟨bs, hbs⟩ := ih
    exact ⟨_, has.trans hbs⟩

/-- **Every call is a walk**, from whatever scanner it is made. -/
theorem Call.exists_walk (c : Call) (s : Scanner) : ∃ cs, Walk cs s (c.next s) := by
  cases c with
  | pull =>
    unfold next run
    cases h : s.next? with
    | none => exact ⟨[], Walk.refl s⟩
    | some r => exact exists_walk_of_next? h
  | read => exact exists_walk_read s
  | drain => exact exists_walk_drain s
  | current | following | atEnd | location => exact ⟨[], Walk.refl s⟩
  | skipChar | skipSpace | skipLine | readNumber | readWord => exact ⟨_, walk_advance s _⟩

theorem exists_walk_afterCalls (calls : List Call) (s : Scanner) : ∃ cs, Walk cs s (afterCalls calls s) := by
  induction calls generalizing s with
  | nil => exact ⟨[], Walk.refl s⟩
  | cons c calls ih =>
    obtain ⟨as, has⟩ := c.exists_walk s
    obtain ⟨bs, hbs⟩ := ih (c.next s)
    exact ⟨_, has.trans hbs⟩

/-! ## Where a walk leads -/

/-- a walk from the beginning of a source leads to an offset of the source, and to its place -/
theorem Walk.in_place {cs : List Char} {source : String} {s : Scanner} (h : Walk cs (ofString source) s) :
    s.offset ≤ source.toList.length ∧ s.rest = source.toList.drop s.offset ∧
      s.location = placeAt source.toList s.offset := by
  have htext : source.toList = cs ++ s.rest := h.rest
  have hoffset : s.offset = cs.length := h.offset.trans (Nat.zero_add _)
  rw [hoffset, htext]
  refine ⟨?_, List.drop_left.symm, ?_⟩
  · rw [List.length_append]
    exact Nat.le_add_right _ _
  · rw [placeAt_eq]
    exact h.location

theorem Walk.rest_of_finished {cs : List Char} {source : String} {s : Scanner} (h : Walk cs (ofString source) s)
    (hf : s.finished = true) : s.rest = [] := by
  rcases h.finished with hsame | ⟨-, hend⟩
  · rw [hf] at hsame
    cases hsame
  · exact hend

theorem offset_of_rest_nil {cs : List Char} {source : String} {s : Scanner} (h : Walk cs (ofString source) s)
    (hend : s.rest = []) : s.offset = source.toList.length := by
  obtain ⟨hle, hrest, -⟩ := h.in_place
  have hge := List.drop_eq_nil_iff.1 (hrest.symm.trans hend)
  exact Nat.le_antisymm hle hge

/-- a scanner that is finished and has nothing left to read cannot go anywhere -/
theorem Walk.eq_of_finished {cs : List Char} {s s' : Scanner} (h : Walk cs s s') (hf : s.finished = true)
    (hend : s.rest = []) : s' = s := by
  obtain ⟨rfl, hrest⟩ := List.append_eq_nil_iff.1 (h.rest.symm.trans hend)
  have hfinished : s'.finished = true := by
    rcases h.finished with hsame | ⟨hdone, -⟩
    · exact hsame.trans hf
    · exact hdone
  have hoffset : s'.offset = s.offset := h.offset
  have hlocation : s'.location = s.location := h.location
  cases s
  cases s'
  simp only [Scanner.mk.injEq]
  exact ⟨hrest.trans hend.symm, hoffset, hlocation, hfinished.trans hf.symm⟩

/-! ## The token for the end -/

theorem kind_number_ne (pointSeen : Bool) (cs : List Char) : (Lexeme.number pointSeen cs).kind ≠ .endOfInput := by
  fun_induction Lexeme.number pointSeen cs with
  | case1 pointSeen => cases pointSeen <;> decide
  | case2 pointSeen c cs hd ih => exact ih
  | case3 => decide
  | case4 => assumption
  | case5 pointSeen => cases pointSeen <;> decide

theorem wordKind_ne (text : String) : wordKind text ≠ .endOfInput := by
  have hkeywords : ∀ p ∈ keywords, p.2 ≠ .endOfInput := by decide
  unfold wordKind
  cases hk : keywords.lookup text with
  | none => decide
  | some k => exact hkeywords _ (Lexeme.mem_of_lookup hk)

theorem kind_word_ne (cs : List Char) : (Lexeme.word cs).kind ≠ .endOfInput := by
  unfold Lexeme.word
  split
  · intro h
    cases h
  · exact wordKind_ne _

/-- a token for the end is read only where nothing but a gap is left -/
theorem read_endOfInput {s : Scanner} (h : s.read.1.kind = .endOfInput) :
    s.skipGap.rest = [] ∧ s.read.1 = ⟨.endOfInput, "", s.skipGap.location⟩ := by
  unfold read readLexeme at h ⊢
  split
  · next hend => exact ⟨hend, rfl⟩
  · next c cs hcons =>
    rw [hcons] at h
    obtain ⟨after, hfits, -⟩ := Lexeme.first_fits c cs
    exact absurd h hfits.kind_ne

theorem Walk.eq_endToken_of_read {cs : List Char} {source : String} {s : Scanner} (h : Walk cs (ofString source) s)
    (hk : s.read.1.kind = .endOfInput) : s.read.1 = endToken source := by
  obtain ⟨hend, htoken⟩ := read_endOfInput hk
  have hgap : Walk _ (ofString source) s.skipGap := h.trans (walk_advance s _)
  obtain ⟨-, -, hlocation⟩ := hgap.in_place
  rw [htoken, hlocation, offset_of_rest_nil hgap hend]
  rfl

theorem Walk.eq_endToken_of_mem_drain {cs : List Char} {source : String} {s : Scanner} {t : Token}
    (h : Walk cs (ofString source) s) (ht : t ∈ (TokenSource.drain s).1) (hk : t.kind = .endOfInput) :
    t = endToken source := by
  fun_induction TokenSource.drain s generalizing cs with
  | case1 s _ => cases ht
  | case2 s u s' hnext ih =>
    obtain ⟨hu, -⟩ := read_of_next? hnext
    rcases List.mem_cons.1 ht with rfl | ht
    · rw [hu] at hk ⊢
      exact h.eq_endToken_of_read hk
    · obtain ⟨bs, hbs⟩ := exists_walk_of_next? hnext
      exact ih (h.trans hbs) ht

/-- **There is one token for the end**, whatever call it is an answer to. -/
theorem Call.eq_endToken {cs : List Char} {source : String} {s : Scanner} {t : Token} (c : Call)
    (h : Walk cs (ofString source) s) (ht : t ∈ (c.answer s).given) (hk : t.kind = .endOfInput) :
    t = endToken source := by
  cases c with
  | pull =>
    unfold answer run at ht
    cases hnext : s.next? with
    | none =>
      simp [hnext, Answer.given] at ht
    | some r =>
      obtain ⟨hr, -⟩ := read_of_next? hnext
      simp only [hnext, Answer.given, List.mem_singleton] at ht
      rw [ht, hr] at hk ⊢
      exact h.eq_endToken_of_read hk
  | read =>
    obtain rfl := List.mem_singleton.1 ht
    exact h.eq_endToken_of_read hk
  | drain => exact h.eq_endToken_of_mem_drain ht hk
  | readNumber start =>
    obtain rfl := List.mem_singleton.1 ht
    exact absurd hk (kind_number_ne false s.rest)
  | readWord start =>
    obtain rfl := List.mem_singleton.1 ht
    exact absurd hk (kind_word_ne s.rest)
  | current | following | skipChar | skipSpace | skipLine | atEnd | location => cases ht

/-! ## Where a scanner is finished -/

theorem next?_of_finished {s : Scanner} (hf : s.finished = true) : s.next? = none := by
  unfold next?
  rw [if_pos hf]

theorem pull_of_finished {s : Scanner} (hf : s.finished = true) : Call.pull.answer s = .dry := by
  simp only [Call.answer, Call.run, next?_of_finished hf]

theorem drain_of_finished {s : Scanner} (hf : s.finished = true) : Call.drain.answer s = .tokens [] := by
  have hdry : (TokenSource.drain s).1 = [] := TokenSource.drain_of_none (next?_of_finished hf)
  simp only [Call.answer, Call.run, hdry]

/-- a finished scanner gives the token for the end to whoever reads on -/
theorem Walk.read_of_finished {cs : List Char} {source : String} {s : Scanner} (h : Walk cs (ofString source) s)
    (hf : s.finished = true) : Call.read.answer s = .token (endToken source) := by
  have hend : s.skipGap.rest = [] := by
    change s.rest.drop _ = []
    rw [h.rest_of_finished hf, List.drop_nil]
  have hkind : s.read.1.kind = .endOfInput := by
    unfold read readLexeme
    rw [hend]
  exact congrArg Answer.token (h.eq_endToken_of_read hkind)

/-- **A scanner stays in place, however it is driven.** After whatever calls, its offset is one of the source and its
location is the place of that offset; further calls do not take it back. Where it is finished it is at the end, and no
further calls change it: nothing is left to pull, and reading gives the token for the end once more, which is the same
one in every answer. -/
theorem driven_in_place (source : String) (calls more : List Call) :
    let s := afterCalls calls (ofString source)
    let s' := afterCalls more s
    s.offset ≤ source.toList.length ∧ s.rest = source.toList.drop s.offset ∧
      s.location = placeAt source.toList s.offset ∧ s.offset ≤ s'.offset ∧
      (s.finished = true → s.offset = source.toList.length ∧ s' = s ∧ Call.pull.answer s = .dry ∧
        Call.drain.answer s = .tokens [] ∧ Call.read.answer s = .token (endToken source)) ∧
      ∀ (c : Call) (t : Token), t ∈ (c.answer s).given → t.kind = .endOfInput → t = endToken source := by
  intro s s'
  obtain ⟨cs, hcs⟩ := exists_walk_afterCalls calls (ofString source)
  obtain ⟨ds, hds⟩ := exists_walk_afterCalls more s
  obtain ⟨hle, hrest, hlocation⟩ := hcs.in_place
  have hforward : s.offset ≤ s'.offset := by
    rw [hds.offset]
    exact Nat.le_add_right _ _
  refine ⟨hle, hrest, hlocation, hforward, ?_, ?_⟩
  · intro hf
    have hend : s.rest = [] := hcs.rest_of_finished hf
    exact ⟨offset_of_rest_nil hcs hend, hds.eq_of_finished hf hend, pull_of_finished hf, drain_of_finished hf,
      hcs.read_of_finished hf⟩
  · intro c t ht hk
    exact c.eq_endToken hcs ht hk

/-- a number is asked for where there is none, at a line feed; the scanner reads on to the end and stays there -/
theorem driven_in_place_past_feed :
    let s := afterCalls [.pull, .readNumber .start, .read] (ofString "x\n")
    s.finished = true ∧ s.offset = 2 ∧ s.location = ⟨2, 0⟩ ∧ afterCalls [.skipChar, .readWord .start] s = s ∧
      Call.read.answer s = .token ⟨.endOfInput, "", ⟨2, 0⟩⟩ := by
  intro s
  have hf : s.finished = true := by decide
  obtain ⟨-, -, hlocation, -, hend, -⟩ :=
    driven_in_place "x\n" [.pull, .readNumber .start, .read] [.skipChar, .readWord .start]
  obtain ⟨hoffset, hsame, -, -, hread⟩ := hend hf
  have hplace : placeAt "x\n".toList 2 = ⟨2, 0⟩ := by decide
  refine ⟨hf, hoffset, ?_, hsame, hread.trans ?_⟩
  · rw [hlocation, hoffset]
    exact hplace
  · exact congrArg (fun l => Answer.token ⟨.endOfInput, "", l⟩) hplace

end Scanner

end LetFront
