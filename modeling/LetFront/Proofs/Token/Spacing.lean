/-
Lexemes with space between them. Whatever lexemes are written one after the other, and whatever white space and comments
stand around them, the scanner gives these lexemes again, if white space follows each of them and every comment in front
of a lexeme is closed by a line feed. So a lexeme does not depend on where it stood: it is given by its text.

`IsLexeme x`: some source has the lexeme `x`. `Written xs cs`: the text `cs` is the lexemes `xs` in that order, with a
separator between each and the next and a trail behind the last.

Main statements: `IsLexeme.fits`, a lexeme of a source fits in front of white space anywhere; `Written.spells`, what is
written is spelled; `tokens_undo_writing`, lexing undoes writing, joining the literals of a source with single spaces
included, and the kind of a token is given by its literal.
-/
import Mathlib
import LetFront.Proofs.Token.Concat

namespace LetFront

/-! ## Separators -/

/-- white space and comments, every comment closed by a line feed -/
inductive ClosedGap : List Char → Prop
  | nil : ClosedGap []
  | space {c : Char} {g : List Char} (hc : isSpace c = true) (hg : ClosedGap g) : ClosedGap (c :: g)
  | comment {body g : List Char} (hb : ∀ c ∈ body, c ≠ '\n') (hg : ClosedGap g) :
      ClosedGap ('/' :: '/' :: (body ++ '\n' :: g))

/-- a closed gap that begins with white space -/
inductive IsSeparator : List Char → Prop
  | space {c : Char} {g : List Char} (hc : isSpace c = true) (hg : ClosedGap g) : IsSeparator (c :: g)

/-- what may stand behind the last lexeme: nothing, or a separator, or one with a comment that nothing closes -/
inductive IsTrail : List Char → Prop
  | nil : IsTrail []
  | separator {g : List Char} (hg : IsSeparator g) : IsTrail g
  | comment {g body : List Char} (hg : IsSeparator g) (hb : ∀ c ∈ body, c ≠ '\n') : IsTrail (g ++ '/' :: '/' :: body)

theorem ClosedGap.isGap {g : List Char} (h : ClosedGap g) (after : List Char) : IsGap g after := by
  induction h with
  | nil => exact .nil after
  | space hc _ ih => exact .space hc ih
  | @comment body g hb _ ih =>
    refine .comment hb ?_ (.space (by decide) ih)
    intro c hc
    exact (Option.some.inj hc).symm

theorem IsSeparator.closedGap {g : List Char} (h : IsSeparator g) : ClosedGap g := by
  cases h with
  | space hc hg => exact .space hc hg

theorem IsSeparator.breaks {g : List Char} (h : IsSeparator g) (cs : List Char) : ∀ c ∈ (g ++ cs).head?, Breaks c := by
  cases h with
  | space hc _ =>
    intro d hd
    cases hd
    exact .of_isSpace hc

theorem IsTrail.isGap {g : List Char} (h : IsTrail g) : IsGap g [] := by
  cases h with
  | nil => exact .nil []
  | separator hg => exact hg.closedGap.isGap []
  | @comment g body hg hb =>
    refine (hg.closedGap.isGap _).append ?_
    rw [← List.append_nil body]
    exact .comment hb (by simp) (.nil [])

theorem IsTrail.breaks {g : List Char} (h : IsTrail g) : ∀ c ∈ g.head?, Breaks c := by
  cases h with
  | nil => simp
  | separator hg => simpa using hg.breaks []
  | comment hg _ => exact hg.breaks _

/-! ## Lexemes of sources -/

/-- some source has the lexeme -/
def IsLexeme (x : Lexeme) : Prop := ∃ source, ∃ t ∈ tokens source, t.kind ≠ .endOfInput ∧ t.lexeme = x

theorem Layout.Grammatical.fits_of_mem {lay : Layout} (h : lay.Grammatical) {x : Lexeme} (hx : x ∈ lay.lexemes) :
    ∃ after, x.Fits after ∧ ¬ StartsGap (x.text ++ after) := by
  induction h with
  | last => cases hx
  | @next g y rest _ hs hy _ ih =>
    rcases List.mem_cons.1 hx with rfl | hx
    · exact ⟨rest.text, hy, hs⟩
    · exact ih hx

theorem lexemes_of_tokens (source : String) :
    ∃ xs, (tokens source).map Token.lexeme = xs ++ [⟨.endOfInput, []⟩] ∧ ∀ x ∈ xs, IsLexeme x := by
  obtain ⟨lay, hlay, htext⟩ := exists_layout source.toList
  have hmap : (tokens source).map Token.lexeme = lay.lexemes ++ [⟨.endOfInput, []⟩] := by
    rw [tokens_of_layout hlay htext, Layout.map_lexeme_tokens]
  refine ⟨lay.lexemes, hmap, ?_⟩
  intro x hx
  obtain ⟨t, ht, rfl⟩ := List.mem_map.1 (hmap ▸ List.mem_append_left _ hx)
  obtain ⟨after, hfits, -⟩ := hlay.fits_of_mem hx
  exact ⟨source, t, ht, hfits.kind_ne, rfl⟩

/-- **A lexeme is one anywhere.** It fits if nothing follows, and no gap begins in it. -/
theorem IsLexeme.fits {x : Lexeme} (h : IsLexeme x) : x.Fits [] ∧ ¬ StartsGap x.text := by
  obtain ⟨source, t, ht, hkind, rfl⟩ := h
  obtain ⟨lay, hlay, htext⟩ := exists_layout source.toList
  have hmem : t.lexeme ∈ lay.lexemes ++ [⟨.endOfInput, []⟩] := by
    rw [← Layout.map_lexeme_tokens lay .start, ← tokens_of_layout hlay htext]
    exact List.mem_map_of_mem ht
  rcases List.mem_append.1 hmem with hmem | hmem
  · obtain ⟨after, hfits, hstart⟩ := hlay.fits_of_mem hmem
    exact ⟨hfits.of_head? (by simp), fun hs => hstart (hs.append after)⟩
  · exact absurd (congrArg Lexeme.kind (List.mem_singleton.1 hmem)) hkind

/-- what fits if nothing follows, and has no gap in it, is the one lexeme of its text -/
theorem isLexeme_of_fits {x : Lexeme} (h : x.Fits []) (hs : ¬ StartsGap x.text) : IsLexeme x := by
  have hlay : (Layout.next [] x (.last [])).Grammatical :=
    .next (.nil _) (by rwa [Layout.text, List.append_nil]) h (.last (.nil []))
  have htext : (Layout.next [] x (.last [])).text = (String.ofList x.text).toList := by
    simp [Layout.text]
  refine ⟨String.ofList x.text, ⟨x.kind, String.ofList x.text, .start⟩, ?_, h.kind_ne, ?_⟩
  · rw [tokens_of_layout hlay htext]
    exact List.mem_cons_self
  · rw [Token.lexeme, String.toList_ofList]

theorem IsLexeme.fits_of_breaks {x : Lexeme} (h : IsLexeme x) {after : List Char} (hb : ∀ c ∈ after.head?, Breaks c) :
    x.Fits after ∧ ¬ StartsGap (x.text ++ after) := by
  obtain ⟨hfits, hstart⟩ := h.fits
  exact ⟨hfits.append hb, fun hs => hstart (hs.of_append hfits.text_ne_nil hb)⟩

/-- a lexeme is given by its text -/
theorem IsLexeme.eq_of_text_eq {x y : Lexeme} (hx : IsLexeme x) (hy : IsLexeme y) (h : x.text = y.text) : x = y := by
  obtain ⟨c, cs, hcs, hfirst⟩ := Lexeme.first_of_fits hx.fits.1
  obtain ⟨d, ds, hds, hfirst'⟩ := Lexeme.first_of_fits hy.fits.1
  rw [h, hds] at hcs
  obtain ⟨rfl, rfl⟩ := List.cons.inj hcs
  exact hfirst.symm.trans hfirst'

/-! ## Writing -/

/-- the text is the lexemes in order, with a separator between each and the next and a trail behind the last -/
inductive Written : List Lexeme → List Char → Prop
  | nil {trail : List Char} (ht : IsTrail trail) : Written [] trail
  | last (x : Lexeme) {trail : List Char} (ht : IsTrail trail) : Written [x] (x.text ++ trail)
  | next (x : Lexeme) {y : Lexeme} {xs : List Lexeme} {sep cs : List Char} (hs : IsSeparator sep)
      (h : Written (y :: xs) cs) : Written (x :: y :: xs) (x.text ++ (sep ++ cs))

theorem Layout.Grammatical.cons {x : Lexeme} {g : List Char} {lay : Layout} (h : lay.Grammatical) (hx : IsLexeme x)
    (hg : ClosedGap g) (hb : ∀ c ∈ lay.text.head?, Breaks c) : (Layout.next g x lay).Grammatical := by
  obtain ⟨hfits, hstart⟩ := hx.fits_of_breaks hb
  exact .next (hg.isGap _) hstart hfits h

theorem Spells.cons {x : Lexeme} {xs : List Lexeme} {g cs : List Char} (h : Spells xs cs) (hx : IsLexeme x)
    (hg : ClosedGap g) (hb : ∀ c ∈ cs.head?, Breaks c) : Spells (x :: xs) (g ++ (x.text ++ cs)) := by
  obtain ⟨lay, hlay, rfl, rfl⟩ := h
  exact ⟨.next g x lay, hlay.cons hx hg hb, rfl, rfl⟩

/-- **What is written is spelled**, with any closed gap in front. -/
theorem Written.spells {xs : List Lexeme} {cs : List Char} (h : Written xs cs) (hxs : ∀ x ∈ xs, IsLexeme x)
    {lead : List Char} (hlead : ClosedGap lead) : Spells xs (lead ++ cs) := by
  induction h generalizing lead with
  | @nil trail ht =>
    have hgap : IsGap (lead ++ trail) [] := (hlead.isGap _).append ht.isGap
    exact ⟨.last (lead ++ trail), .last hgap, rfl, rfl⟩
  | @last x trail ht =>
    have hnone : Spells [] trail := ⟨.last trail, .last ht.isGap, rfl, rfl⟩
    exact hnone.cons (hxs x List.mem_cons_self) hlead ht.breaks
  | @next x y xs sep cs hs _ ih =>
    obtain ⟨hx, hrest⟩ := List.forall_mem_cons.1 hxs
    -- the separator is the gap in front of the next lexeme
    exact (ih hrest hs.closedGap).cons hx hlead (hs.breaks cs)

theorem tokens_of_spells {xs : List Lexeme} {source : String} (h : Spells xs source.toList) :
    (tokens source).map Token.lexeme = xs ++ [⟨.endOfInput, []⟩] := by
  obtain ⟨lay, hlay, htext, rfl⟩ := h
  rw [tokens_of_layout hlay htext, Layout.map_lexeme_tokens]

/-! ## Joining with single spaces -/

/-- the literals of the tokens with single spaces between them -/
def joined (ts : List Token) : String := String.intercalate " " (ts.map Token.literal)

theorem toList_joined (ts : List Token) :
    (joined ts).toList = [' '].intercalate ((ts.map Token.lexeme).map Lexeme.text) := by
  rw [joined, String.toList_intercalate, List.map_map, List.map_map]
  rfl

theorem isSeparator_space : IsSeparator [' '] := .space (by decide) .nil

/-- lexemes joined with single spaces are written so, with an empty text joined behind them or without -/
theorem written_intercalate (xs : List Lexeme) {ends : List (List Char)} (h : ends = [] ∨ ends = [[]]) :
    Written xs ([' '].intercalate (xs.map Lexeme.text ++ ends)) := by
  induction xs with
  | nil => rcases h with rfl | rfl <;> exact .nil .nil
  | cons x xs ih =>
    cases xs with
    | nil =>
      rcases h with rfl | rfl
      · simpa using Written.last x .nil
      · exact .last x (.separator isSeparator_space)
    | cons y xs =>
      rw [List.map_cons, List.map_cons, List.cons_append, List.cons_append, List.intercalate_cons_cons,
        List.append_assoc]
      exact .next x isSeparator_space ih

theorem isLexeme_or_end {source : String} {t : Token} (h : t ∈ tokens source) :
    IsLexeme t.lexeme ∨ t.lexeme = ⟨.endOfInput, []⟩ := by
  obtain ⟨xs, hmap, hxs⟩ := lexemes_of_tokens source
  have hmem : t.lexeme ∈ xs ++ [⟨.endOfInput, []⟩] := hmap ▸ List.mem_map_of_mem h
  rcases List.mem_append.1 hmem with hmem | hmem
  · exact .inl (hxs _ hmem)
  · exact .inr (List.mem_singleton.1 hmem)

/-- **Lexing undoes writing.** Lexemes that are written with separators between them, a closed gap in front and a trail
behind, are what the scanner gives of the text, and then the end. So a source whose literals are joined with single
spaces, with or without that of the token for the end, has the same lexemes again; and the kind of a token is given by
its literal. -/
theorem tokens_undo_writing :
    (∀ (xs : List Lexeme) (lead cs : List Char), (∀ x ∈ xs, IsLexeme x) → ClosedGap lead → Written xs cs →
      (tokens (String.ofList (lead ++ cs))).map Token.lexeme = xs ++ [⟨.endOfInput, []⟩]) ∧
    (∀ source, (tokens (joined (tokens source))).map Token.lexeme = (tokens source).map Token.lexeme ∧
      (tokens (joined (tokens source).dropLast)).map Token.lexeme = (tokens source).map Token.lexeme) ∧
    ∀ source source', ∀ t ∈ tokens source, ∀ t' ∈ tokens source', t.literal = t'.literal → t.kind = t'.kind := by
  refine ⟨?_, ?_, ?_⟩
  · intro xs lead cs hxs hlead hcs
    apply tokens_of_spells
    rw [String.toList_ofList]
    exact hcs.spells hxs hlead
  · intro source
    obtain ⟨xs, hmap, hxs⟩ := lexemes_of_tokens source
    have hdrop : ((tokens source).dropLast).map Token.lexeme = xs := by
      rw [List.map_dropLast, hmap, List.dropLast_concat]
    rw [hmap]
    constructor
    · apply tokens_of_spells
      rw [toList_joined, hmap, List.map_append]
      exact (written_intercalate xs (.inr rfl)).spells hxs .nil
    · apply tokens_of_spells
      rw [toList_joined, hdrop, ← List.append_nil (xs.map _)]
      exact (written_intercalate xs (.inl rfl)).spells hxs .nil
  · intro source source' t ht t' ht' hliteral
    have htext : t.lexeme.text = t'.lexeme.text := congrArg String.toList hliteral
    rcases isLexeme_or_end ht with hx | hend <;> rcases isLexeme_or_end ht' with hx' | hend'
    · exact congrArg Lexeme.kind (hx.eq_of_text_eq hx' htext)
    · rw [hend'] at htext
      exact absurd htext hx.fits.1.text_ne_nil
    · rw [hend] at htext
      exact absurd htext.symm hx'.fits.1.text_ne_nil
    · exact congrArg Lexeme.kind (hend.trans hend'.symm)

/-- a slash, a number with two points and a vertical tab, with comments around them -/
theorem tokens_undo_writing_of_slash :
    (∀ x ∈ [⟨.divide, ['/']⟩, ⟨.illegal, ['1', '.', '.']⟩, ⟨.illegal, ['\x0b']⟩], IsLexeme x) ∧
      ClosedGap ['/', '/', ';', '\n'] ∧
      Written [⟨.divide, ['/']⟩, ⟨.illegal, ['1', '.', '.']⟩, ⟨.illegal, ['\x0b']⟩] "/\r//\n1..\t\x0b //x".toList ∧
      (tokens (String.ofList (['/', '/', ';', '\n'] ++ "/\r//\n1..\t\x0b //x".toList))).map Token.lexeme =
        [⟨.divide, ['/']⟩, ⟨.illegal, ['1', '.', '.']⟩, ⟨.illegal, ['\x0b']⟩] ++ [⟨.endOfInput, []⟩] := by
  have htokens : tokens "/ 1..\x0b" =
      [⟨.divide, "/", ⟨1, 0⟩⟩, ⟨.illegal, "1..", ⟨1, 2⟩⟩, ⟨.illegal, "\x0b", ⟨1, 5⟩⟩, ⟨.endOfInput, "", ⟨1, 6⟩⟩] := by
    cbv
  have hxs : ∀ x ∈ [⟨.divide, ['/']⟩, ⟨.illegal, ['1', '.', '.']⟩, ⟨.illegal, ['\x0b']⟩], IsLexeme x := by
    intro x hx
    have hmem : ∃ t ∈ tokens "/ 1..\x0b", t.kind ≠ .endOfInput ∧ t.lexeme = x := by
      rw [htokens]
      simp only [List.mem_cons, List.not_mem_nil, or_false] at hx
      rcases hx with rfl | rfl | rfl <;> decide
    exact ⟨_, hmem⟩
  have hlead : ClosedGap ['/', '/', ';', '\n'] := @ClosedGap.comment [';'] [] (by simp) .nil
  have hcomment : ClosedGap ['/', '/', '\n'] := @ClosedGap.comment [] [] (by simp) .nil
  have hwritten : Written [⟨.divide, ['/']⟩, ⟨.illegal, ['1', '.', '.']⟩, ⟨.illegal, ['\x0b']⟩]
      "/\r//\n1..\t\x0b //x".toList :=
    .next ⟨.divide, ['/']⟩ (.space (c := '\r') (by decide) hcomment)
      (.next ⟨.illegal, ['1', '.', '.']⟩ (.space (c := '\t') (by decide) .nil)
        (.last ⟨.illegal, ['\x0b']⟩ (@IsTrail.comment [' '] ['x'] isSeparator_space (by simp))))
  exact ⟨hxs, hlead, hwritten, tokens_undo_writing.1 _ _ _ hxs hlead hwritten⟩

end LetFront
