/-
Whom an error blames. The error of a segment either says that the input ran out, and then it has no location, or it
blames a token: it names the kind of that token last and has its location. The token is one of the segment or the one
behind it, so over a whole program it is one of the tokens that were read.

Main statements: `Segment.blames`, the error of a segment; `exists_blamed_of_mem_errors`, an error of a program;
`mem_tokens_of_location`, a located error of a text stands where a token of the text does.
-/
import LetFront.Proofs.Program.Division

namespace LetFront

/-- an error that blames the token -/
inductive Token.BlamedBy (t : Token) : ParseError → Prop
  | unexpected : t.BlamedBy ⟨"unexpected token: " ++ t.kind.name, some t.location⟩
  | mismatch (k : Kind) :
      t.BlamedBy ⟨"expected a '" ++ k.name ++ "' token but got '" ++ t.kind.name ++ "'", some t.location⟩

theorem Token.BlamedBy.location {t : Token} {e : ParseError} (h : t.BlamedBy e) : e.location = some t.location := by
  cases h <;> rfl

theorem missing_blames (k : Kind) (rest : List Token) :
    missing k rest = ⟨"unexpected end of input", none⟩ ∨ ∃ t ∈ rest, t.BlamedBy (missing k rest) := by
  cases rest with
  | nil => exact .inl rfl
  | cons t rest => exact .inr ⟨t, List.mem_cons_self, .mismatch k⟩

/-- **A segment blames a token at hand**, or nothing is left to blame. -/
theorem Segment.blames {seg after : List Token} {e : ParseError} (h : Segment seg after (.error e)) :
    e = ⟨"unexpected end of input", none⟩ ∨ ∃ t ∈ seg ++ after, t.BlamedBy e := by
  cases h with
  | stray => exact .inr ⟨_, List.mem_cons_self, .unexpected⟩
  | unnamed =>
    refine (missing_blames _ _).imp_right ?_
    rintro ⟨t, ht, hblame⟩
    exact ⟨t, List.mem_cons_of_mem _ ht, hblame⟩
  | unassigned =>
    refine (missing_blames _ _).imp_right ?_
    rintro ⟨t, ht, hblame⟩
    exact ⟨t, List.mem_cons_of_mem _ (List.mem_cons_of_mem _ ht), hblame⟩
  | unclosed => exact .inl rfl

theorem Divides.blames {post : List Token} {ps : List (List Token × Reading)} (h : Divides post ps) {e : ParseError}
    (he : e ∈ errorsOf ps) :
    e = ⟨"unexpected end of input", none⟩ ∨ ∃ t ∈ ps.flatMap Prod.fst ++ post, t.BlamedBy e := by
  induction h with
  | nil => cases he
  | @cons seg r ps hseg _ ih =>
    have hlater : e ∈ errorsOf ps →
        e = ⟨"unexpected end of input", none⟩ ∨ ∃ t ∈ (seg ++ ps.flatMap Prod.fst) ++ post, t.BlamedBy e := by
      intro he
      refine (ih he).imp_right ?_
      rintro ⟨t, ht, hblame⟩
      exact ⟨t, List.append_assoc seg _ post ▸ List.mem_append_right seg ht, hblame⟩
    cases r with
    | ok b => exact hlater he
    | error f =>
      rcases List.mem_cons.1 he with rfl | he
      · rw [List.flatMap_cons, List.append_assoc]
        exact hseg.blames
      · exact hlater he

/-- **Programs blame their tokens.** An error of a program blames one of the tokens of the source, or none. -/
theorem exists_blamed_of_mem_errors {σ : Type} [TokenSource σ] {source : σ} {e : ParseError}
    (he : e ∈ (Program.ofSource source).errors) :
    e = ⟨"unexpected end of input", none⟩ ∨ ∃ t ∈ (TokenSource.drain source).1, t.BlamedBy e := by
  obtain ⟨ps, hps, hflat, -, herrors⟩ := exists_division_ofSource source
  rw [herrors] at he
  have hblames := hps.blames he
  rwa [hflat, front_append_back] at hblames

theorem mem_tokens_of_location {source : String} {e : ParseError} (he : e ∈ (Program.ofString source).errors)
    {place : Location} (hplace : e.location = some place) : ∃ t ∈ tokens source, t.location = place := by
  rcases exists_blamed_of_mem_errors he with rfl | ⟨t, ht, hblame⟩
  · cases hplace
  · exact ⟨t, ht, Option.some.inj (hblame.location.symm.trans hplace)⟩

end LetFront
