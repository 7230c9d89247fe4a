/-
Text put behind a source. A lexeme is settled as soon as something stands behind it: what comes after that cannot make
it longer, cannot turn it into a comment, and cannot change what stands in front of it. So only the last lexeme of a
source may become another one when the source goes on, and only if the source ends with it.

`Layout.settled l lay`: the tokens of the lexemes with something behind them. `Layout.trail lay`: the gap behind the last
lexeme.

Main statements: `Layout.Grammatical.exists_continued`, settled tokens stay whatever is put behind the text;
`Layout.Grammatical.settled_eq`, with a trail all tokens are settled, and without one all but the last;
`tokens_append_settled`, the same of a source.
-/
import Mathlib.Tactic
import LetFront.Proofs.Token.Concat

namespace LetFront

/-- whether a gap begins in front of a text is seen in its first two characters -/
theorem StartsGap.of_append_of_two {cs bs : List Char} (hcs : 2 ≤ cs.length) (h : StartsGap (cs ++ bs)) :
    StartsGap cs := by
  obtain ⟨c, d, cs, rfl⟩ : ∃ c d ds, cs = c :: d :: ds := by
    match cs, hcs with
    | c :: d :: ds, _ => exact ⟨c, d, ds, rfl⟩
  rcases h with ⟨e, he, hspace⟩ | ⟨after, h⟩
  · exact .inl ⟨e, he, hspace⟩
  · obtain ⟨rfl, htail⟩ := List.cons.inj h
    obtain ⟨rfl, -⟩ := List.cons.inj htail
    exact .inr ⟨cs, rfl⟩

namespace Layout

/-- the tokens of the lexemes with something behind them, in a text that begins at the location -/
def settled (l : Location) : Layout → List Token
  | last _ => []
  | next g x rest =>
    if rest.text = [] then []
    else ⟨x.kind, String.ofList x.text, l.past g⟩ :: rest.settled ((l.past g).past x.text)

/-- the gap behind the last lexeme -/
def trail : Layout → List Char
  | last g => g
  | next _ _ rest => rest.trail

/-- a lexeme with something behind it keeps its place when the text goes on -/
theorem Grammatical.next_continued {g more : List Char} {x : Lexeme} {rest rest' : Layout}
    (h : (Layout.next g x rest).Grammatical) (hne : rest.text ≠ []) (h' : rest'.Grammatical)
    (htext : rest'.text = rest.text ++ more) : (Layout.next g x rest').Grammatical := by
  cases h with
  | next hg hs hx hr =>
    have hhead : rest'.text.head? = rest.text.head? := by rw [htext, List.head?_append_of_ne_nil _ hne]
    have hfront : x.text ++ rest'.text = (x.text ++ rest.text) ++ more := by rw [htext, List.append_assoc]
    have htwo : 2 ≤ (x.text ++ rest.text).length := by
      have hx := List.length_pos_iff.2 hx.text_ne_nil
      have hrest := List.length_pos_iff.2 hne
      rw [List.length_append]
      omega
    refine .next ?_ ?_ ?_ h'
    · refine hg.of_head? fun c hc => .inl ?_
      rwa [hfront, List.head?_append_of_ne_nil _ (List.append_ne_nil_of_left_ne_nil hx.text_ne_nil _)] at hc
    · rw [hfront]
      exact fun hstart => hs (hstart.of_append_of_two htwo)
    · refine hx.of_head? fun c hc => .inl ?_
      rwa [hhead] at hc

/-- **Settled tokens stay.** A text that goes on has a layout that begins with the settled tokens. -/
theorem Grammatical.exists_continued {lay : Layout} (h : lay.Grammatical) (more : List Char) :
    ∃ lay' : Layout, lay'.Grammatical ∧ lay'.text = lay.text ++ more ∧ ∀ l, lay.settled l <+: lay'.tokens l := by
  induction h with
  | @last g _ =>
    obtain ⟨lay', hlay', htext⟩ := exists_layout (g ++ more)
    exact ⟨lay', hlay', htext, fun _ => List.nil_prefix⟩
  | @next g x rest hg hs hx hr ih =>
    by_cases hne : rest.text = []
    · obtain ⟨lay', hlay', htext⟩ := exists_layout ((Layout.next g x rest).text ++ more)
      refine ⟨lay', hlay', htext, fun l => ?_⟩
      rw [settled, if_pos hne]
      exact List.nil_prefix
    · obtain ⟨rest', hrest', htext, hsettled⟩ := ih
      refine ⟨Layout.next g x rest', (Grammatical.next hg hs hx hr).next_continued hne hrest' htext, ?_, fun l => ?_⟩
      · simp only [text, htext, List.append_assoc]
      · rw [settled, if_neg hne]
        exact List.cons_prefix_cons.2 ⟨rfl, hsettled _⟩

/-- **Which tokens are settled**: all of them in front of a trail, and all but the last without one. -/
theorem Grammatical.settled_eq {lay : Layout} (h : lay.Grammatical) (l : Location) :
    lay.settled l = if lay.trail = [] then (lay.innerTokens l).dropLast else lay.innerTokens l := by
  induction h generalizing l with
  | last => simp [settled, innerTokens]
  | @next g x rest _ _ _ hr ih =>
    cases hr with
    | @last g' _ =>
      by_cases hg' : g' = [] <;> simp [settled, innerTokens, trail, text, hg']
    | @next g' y rest' _ _ hy _ =>
      have hne : (Layout.next g' y rest').text ≠ [] := by simp [text, hy.text_ne_nil]
      have hinner : ∀ m, (Layout.next g' y rest').innerTokens m ≠ [] := fun _ => List.cons_ne_nil _ _
      rw [settled, if_neg hne, ih]
      change _ = if (Layout.next g' y rest').trail = [] then (_ :: (Layout.next g' y rest').innerTokens _).dropLast else
        _ :: (Layout.next g' y rest').innerTokens _
      rw [List.dropLast_cons_of_ne_nil (hinner _)]
      split <;> rfl

/-- the last lexeme stands in front of the trail, at the location of its token -/
theorem exists_split_getLast (lay : Layout) {l : Location} {t : Token} (h : t ∈ (lay.innerTokens l).getLast?) :
    ∃ before, lay.text = before ++ (t.literal.toList ++ lay.trail) ∧ t.location = l.past before := by
  induction lay generalizing l with
  | last => cases h
  | next g x rest ih =>
    cases rest with
    | last g' =>
      rw [innerTokens, innerTokens, List.getLast?_singleton] at h
      cases h
      exact ⟨g, by simp [text, trail], rfl⟩
    | next g' y rest' =>
      rw [innerTokens, innerTokens, List.getLast?_cons_cons] at h
      obtain ⟨before, htext, hlocation⟩ := ih h
      refine ⟨g ++ (x.text ++ before), ?_, ?_⟩
      · rw [text, htext]
        simp [trail]
      · rw [hlocation, Location.past_append, Location.past_append]

theorem Grammatical.isGap_trail {lay : Layout} (h : lay.Grammatical) : IsGap lay.trail [] := by
  induction h with
  | last hg => exact hg
  | next _ _ _ _ ih => exact ih

end Layout

/-- **Only the last token is open.** Whatever is put behind a source, its tokens in front of the end begin with the same
ones, apart from the last; and with the last one too, if the source does not end with it, where its location says that
it stands, but goes on behind it with white space or a comment. -/
theorem tokens_append_settled (source : String) :
    ∃ ts last, tokens source = ts ++ [last] ∧ last.kind = .endOfInput ∧
      (∀ more, ts.dropLast <+: tokens (source ++ more)) ∧
      ∀ t ∈ ts.getLast?, ∃ before after, source = before ++ t.literal ++ after ∧
        t.location = Location.start.past before.toList ∧ IsGap after.toList [] ∧
        (after ≠ "" → ∀ more, ts <+: tokens (source ++ more)) := by
  obtain ⟨lay, hlay, htext⟩ := exists_layout source.toList
  have hsettled : ∀ more, lay.settled .start <+: tokens (source ++ more) := by
    intro more
    obtain ⟨lay', hlay', htext', hprefix⟩ := hlay.exists_continued more.toList
    rw [tokens_of_layout hlay' (by rw [htext', htext, String.toList_append])]
    exact hprefix .start
  have heq := hlay.settled_eq .start
  refine ⟨lay.innerTokens .start, _, by rw [tokens_of_layout hlay htext, Layout.tokens_eq], rfl, ?_, ?_⟩
  · intro more
    have hdrop : (lay.innerTokens .start).dropLast <+: lay.settled .start := by
      rw [heq]
      split
      · exact List.prefix_rfl
      · exact List.dropLast_prefix _
    exact hdrop.trans (hsettled more)
  · intro t ht
    obtain ⟨before, hsplit, hlocation⟩ := lay.exists_split_getLast ht
    refine ⟨String.ofList before, String.ofList lay.trail, ?_, ?_, ?_, ?_⟩
    · apply String.toList_injective
      rw [← htext, hsplit]
      simp
    · rwa [String.toList_ofList]
    · rw [String.toList_ofList]
      exact hlay.isGap_trail
    · intro hafter more
      have htrail : lay.trail ≠ [] := by simpa using hafter
      rw [if_neg htrail] at heq
      exact heq ▸ hsettled more

/-- a second slash turns the last token into a comment, and leaves the first alone -/
example : tokens ("1. /" ++ "/;") = [⟨.float, "1.", ⟨1, 0⟩⟩, ⟨.endOfInput, "", ⟨1, 6⟩⟩] := by cbv

end LetFront
