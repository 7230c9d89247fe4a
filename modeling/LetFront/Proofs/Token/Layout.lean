/-
The lexical grammar of whole texts. A layout cuts a text into gaps and lexemes. It is grammatical if every gap is one,
no lexeme begins where a gap could begin, and every lexeme fits where it stands.

Main statements: `exists_layout` and `layout_unique`, every text has one grammatical layout; `drain_of_layout`, a
scanner gives the tokens of the layout; `tokens_spell`, the tokens of a source are the lexemes that spell it.
-/
import LetFront.Proofs.Token.Grammar
import LetFront.Token.Scanner

namespace LetFront

/-- a text cut into gaps and lexemes; no lexeme follows the last gap -/
inductive Layout where
  | last (gap : List Char)
  | next (gap : List Char) (x : Lexeme) (rest : Layout)

namespace Layout

def text : Layout → List Char
  | last g => g
  | next g x rest => g ++ (x.text ++ rest.text)

def lexemes : Layout → List Lexeme
  | last _ => []
  | next _ x rest => x :: rest.lexemes

/-- the tokens of a text that begins at the location, the one for the end included -/
def tokens (l : Location) : Layout → List Token
  | last g => [⟨.endOfInput, "", l.past g⟩]
  | next g x rest => ⟨x.kind, String.ofList x.text, l.past g⟩ :: rest.tokens ((l.past g).past x.text)

inductive Grammatical : Layout → Prop
  | last {g : List Char} (hg : IsGap g []) : Grammatical (last g)
  | next {g : List Char} {x : Lexeme} {rest : Layout} (hg : IsGap g (x.text ++ rest.text))
      (hs : ¬ StartsGap (x.text ++ rest.text)) (hx : x.Fits rest.text) (hr : rest.Grammatical) :
      Grammatical (next g x rest)

end Layout

/-- the lexemes are those of a text, in order, with gaps around them -/
def Spells (xs : List Lexeme) (cs : List Char) : Prop :=
  ∃ lay : Layout, lay.Grammatical ∧ lay.text = cs ∧ lay.lexemes = xs

/-- what a token says apart from its location -/
def Token.lexeme (t : Token) : Lexeme := ⟨t.kind, t.literal.toList⟩

/-! ## Layouts -/

/-- every text has a grammatical layout -/
theorem exists_layout (cs : List Char) : ∃ lay : Layout, lay.Grammatical ∧ lay.text = cs := by
  induction hn : cs.length using Nat.strong_induction_on generalizing cs with
  | _ n ih =>
    obtain ⟨g, after, rfl, hg, ha⟩ := exists_gap cs
    cases after with
    | nil => exact ⟨.last g, .last hg, (List.append_nil g).symm⟩
    | cons c after =>
      obtain ⟨rest, hfits, htext⟩ := Lexeme.first_fits c after
      have hlen : rest.length < n := by
        have hpos := List.length_pos_iff.2 (Lexeme.first_text_ne_nil c after)
        have htotal := congrArg List.length htext
        rw [List.length_append] at htotal hn
        omega
      obtain ⟨lay, hlay, rfl⟩ := ih rest.length hlen rest rfl
      refine ⟨.next g (Lexeme.first c after) lay, .next ?_ ?_ hfits hlay, ?_⟩
      · rwa [htext]
      · rwa [htext]
      · rw [Layout.text, htext]

namespace Layout

/-- the first gap -/
def lead : Layout → List Char
  | last g => g
  | next g _ _ => g

/-- what the first gap is in front of -/
def body : Layout → List Char
  | last _ => []
  | next _ x rest => x.text ++ rest.text

theorem lead_append_body (lay : Layout) : lay.lead ++ lay.body = lay.text := by
  cases lay with
  | last g => exact List.append_nil g
  | next g x rest => rfl

theorem Grammatical.gap_text {lay : Layout} (h : lay.Grammatical) : gap lay.text = lay.lead := by
  rw [← lead_append_body]
  cases h with
  | last hg => exact gap_append hg not_startsGap_nil
  | next hg hs _ _ => exact gap_append hg hs

theorem Grammatical.lead_body_unique {lay lay' : Layout} (h : lay.Grammatical) (h' : lay'.Grammatical)
    (heq : lay.text = lay'.text) : lay.lead = lay'.lead ∧ lay.body = lay'.body := by
  have hlead : lay.lead = lay'.lead := by rw [← h.gap_text, heq, h'.gap_text]
  rw [← lay.lead_append_body, ← lay'.lead_append_body, hlead] at heq
  exact ⟨hlead, List.append_cancel_left heq⟩

end Layout

/-- a text has one grammatical layout: the first gap and the first lexeme are determined, and then the rest is -/
theorem layout_unique {lay lay' : Layout} (h : lay.Grammatical) (h' : lay'.Grammatical) (heq : lay.text = lay'.text) :
    lay = lay' := by
  induction h generalizing lay' with
  | @last g hg =>
    obtain ⟨hlead, hbody⟩ := (Layout.Grammatical.last hg).lead_body_unique h' heq
    cases h' with
    | last _ => exact congrArg Layout.last hlead
    | next _ _ hx _ =>
      obtain ⟨c, cs, hcs, -⟩ := Lexeme.first_of_fits hx
      cases hbody.trans hcs
  | @next g x rest hg hs hx hr ih =>
    obtain ⟨hlead, hbody⟩ := (Layout.Grammatical.next hg hs hx hr).lead_body_unique h' heq
    obtain ⟨c, cs, hcs, hfirst⟩ := Lexeme.first_of_fits hx
    cases h' with
    | last _ => cases hcs.symm.trans hbody
    | next _ _ hx' hr' =>
      obtain ⟨c', cs', hcs', hfirst'⟩ := Lexeme.first_of_fits hx'
      obtain ⟨rfl, rfl⟩ := List.cons.inj (hcs.symm.trans (hbody.trans hcs'))
      obtain rfl := hfirst.symm.trans hfirst'
      obtain rfl : g = _ := hlead
      rw [ih hr' (List.append_cancel_left hbody)]

/-! ## What a scanner gives -/

namespace Scanner

theorem drain_finished {s : Scanner} (h : s.finished = true) : (TokenSource.drain s).1 = [] := by
  refine TokenSource.drain_of_none ?_
  change s.next? = none
  rw [next?, if_pos h]

theorem drain_read {s : Scanner} (h : s.finished = false) :
    (TokenSource.drain s).1 = s.read.1 :: (TokenSource.drain s.read.2).1 := by
  refine TokenSource.drain_of_some ?_
  change s.next? = some s.read
  rw [next?, h]
  rfl

theorem advance_append {s : Scanner} {as bs : List Char} (h : s.rest = as ++ bs) :
    s.advance as.length = ⟨bs, s.offset + as.length, s.location.past as, s.finished⟩ := by
  simp [advance, h]

theorem skipGap_of_layout {lay : Layout} (h : lay.Grammatical) {s : Scanner} (hs : s.rest = lay.text) :
    s.skipGap = ⟨lay.body, s.offset + lay.lead.length, s.location.past lay.lead, s.finished⟩ := by
  rw [skipGap, hs, h.gap_text]
  exact advance_append (hs.trans lay.lead_append_body.symm)

/-- **A scanner gives the tokens of the layout** of what it still has to read. -/
theorem drain_of_layout {lay : Layout} (h : lay.Grammatical) (s : Scanner) (hs : s.rest = lay.text)
    (hf : s.finished = false) : (TokenSource.drain s).1 = lay.tokens s.location := by
  induction h generalizing s with
  | @last g hg =>
    have hread : s.read =
        (⟨.endOfInput, "", s.location.past g⟩, ⟨[], s.offset + g.length, s.location.past g, true⟩) := by
      rw [read, skipGap_of_layout (.last hg) hs]
      rfl
    rw [drain_read hf, hread, drain_finished rfl]
    rfl
  | @next g x rest hg hstart hx hr ih =>
    obtain ⟨c, cs, hcs, hfirst⟩ := Lexeme.first_of_fits hx
    have hskip := skipGap_of_layout (.next hg hstart hx hr) hs
    have hread : s.read = s.skipGap.emit x := by
      rw [read, hskip]
      simp only [readLexeme, Layout.body, hcs, hfirst]
    have hafter : s.skipGap.advance x.text.length =
        ⟨rest.text, s.skipGap.offset + x.text.length, (s.location.past g).past x.text, false⟩ := by
      rw [hskip, hf]
      exact advance_append rfl
    calc (TokenSource.drain s).1
        = (s.skipGap.emit x).1 :: (TokenSource.drain (s.skipGap.emit x).2).1 := by rw [drain_read hf, hread]
      _ = (s.skipGap.emit x).1 :: rest.tokens ((s.location.past g).past x.text) := by
        rw [ih (s.skipGap.emit x).2 (by rw [emit, hafter]) (by rw [emit, hafter]), emit, hafter]
      _ = (Layout.next g x rest).tokens s.location := by rw [emit, hskip]; rfl

end Scanner

theorem tokens_of_layout {lay : Layout} {source : String} (h : lay.Grammatical) (hs : lay.text = source.toList) :
    tokens source = lay.tokens .start :=
  Scanner.drain_of_layout h (Scanner.ofString source) hs.symm rfl

theorem Layout.map_lexeme_tokens (lay : Layout) (l : Location) :
    (lay.tokens l).map Token.lexeme = lay.lexemes ++ [⟨.endOfInput, []⟩] := by
  induction lay generalizing l with
  | last g => rfl
  | next g x rest ih => simp [tokens, lexemes, Token.lexeme, ih]

/-- **The scanner accepts exactly its grammar.** Apart from the token for the end, the tokens of a source are the one
sequence of lexemes that spells it. -/
theorem tokens_spell (source : String) :
    ∃ xs, (tokens source).map Token.lexeme = xs ++ [⟨.endOfInput, []⟩] ∧ Spells xs source.toList ∧
      ∀ ys, Spells ys source.toList → ys = xs := by
  obtain ⟨lay, hlay, htext⟩ := exists_layout source.toList
  refine ⟨lay.lexemes, ?_, ⟨lay, hlay, htext, rfl⟩, ?_⟩
  · rw [tokens_of_layout hlay htext, Layout.map_lexeme_tokens]
  · rintro ys ⟨lay', hlay', htext', rfl⟩
    rw [layout_unique hlay' hlay (htext'.trans htext.symm)]

end LetFront
