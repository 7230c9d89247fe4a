/-
Texts put one behind the other. The lexemes of the first stay what they are if the second begins with a character that
no lexeme goes on with; and the second does not fall into a comment that the first leaves open if it begins with a line
feed, or if the first has no comments at all.

`Breaks c`: no lexeme goes on with `c`, and no comment begins with it. `Uncommented cs`: no two slashes stand side by
side in `cs`.

Main statements: `Layout.Grammatical.append`, the layouts of two such texts make up the layout of both;
`Layout.tokens_append`, its tokens are those of the first and then those of the second, farther on;
`tokens_append_feed`, the tokens of two sources with a line feed in between.
-/
import LetFront.Proofs.Token.Tiling

namespace LetFront

/-! ## Where a text may be cut -/

/-- no lexeme goes on with this character, and no comment begins with it -/
def Breaks (c : Char) : Prop := isWordChar c = false ∧ c ≠ '.' ∧ c ≠ '=' ∧ c ≠ '/'

instance (c : Char) : Decidable (Breaks c) :=
  inferInstanceAs (Decidable (isWordChar c = false ∧ c ≠ '.' ∧ c ≠ '=' ∧ c ≠ '/'))

/-- no two slashes stand side by side, so no comment begins anywhere -/
def Uncommented (cs : List Char) : Prop := cs.IsChain fun c d => ¬ (c = '/' ∧ d = '/')

theorem Breaks.of_isSpace {c : Char} (h : isSpace c = true) : Breaks c := by
  simp only [isSpace, Bool.or_eq_true, decide_eq_true_eq] at h
  rcases h with (((rfl | rfl) | rfl) | rfl) | rfl <;> decide

theorem Breaks.not_isDigit {c : Char} (h : Breaks c) : isDigit c = false := by
  by_contra hd
  have hw := Lexeme.isWordChar_of_isDigit (by simpa using hd)
  rw [h.1] at hw
  cases hw

theorem mem_head?_append {α : Type} {as bs : List α} {a : α} (h : a ∈ (as ++ bs).head?) :
    a ∈ as.head? ∨ a ∈ bs.head? := by
  cases as with
  | nil => exact .inr h
  | cons c as => exact .inl h

/-- a lexeme sees no more of what follows than its first character -/
theorem Lexeme.Fits.of_head? {x : Lexeme} {after after' : List Char} (h : x.Fits after)
    (hhead : ∀ c ∈ after'.head?, c ∈ after.head? ∨ Breaks c) : x.Fits after' := by
  cases h with
  | word hw hd ha =>
    refine .word hw hd fun c hc => ?_
    rcases hhead c hc with hc | hb
    · exact ha c hc
    · exact hb.1
  | int hne hd ha =>
    refine .int hne hd fun c hc => ?_
    rcases hhead c hc with hc | hb
    · exact ha c hc
    · exact ⟨hb.not_isDigit, hb.2.1⟩
  | float hd he ha =>
    refine .float hd he fun c hc => ?_
    rcases hhead c hc with hc | hb
    · exact ha c hc
    · exact ⟨hb.not_isDigit, hb.2.1⟩
  | twoPoints _ hd he => exact .twoPoints after' hd he
  | single hc ha =>
    refine .single hc fun heq => ?_
    rcases hhead '=' heq with heq | hb
    · exact ha heq
    · exact hb.2.2.1 rfl
  | double _ hc => exact .double after' hc
  | symbol _ hc => exact .symbol after' hc
  | unknown _ hw hp hc hs => exact .unknown after' hw hp hc hs

theorem Lexeme.Fits.append {x : Lexeme} {after bs : List Char} (h : x.Fits after) (hb : ∀ c ∈ bs.head?, Breaks c) :
    x.Fits (after ++ bs) :=
  h.of_head? fun c hc => (mem_head?_append hc).imp_right (hb c)

theorem StartsGap.append {cs : List Char} (h : StartsGap cs) (bs : List Char) : StartsGap (cs ++ bs) := by
  rcases h with ⟨c, hc, hspace⟩ | h
  · exact .inl ⟨c, by rw [List.head?_append, hc]; rfl, hspace⟩
  · exact .inr (h.trans (List.prefix_append cs bs))

/-- a gap that begins in front of a cut is one without what stands behind -/
theorem StartsGap.of_append {cs bs : List Char} (hcs : cs ≠ []) (hb : ∀ c ∈ bs.head?, Breaks c)
    (h : StartsGap (cs ++ bs)) : StartsGap cs := by
  obtain ⟨c, cs, rfl⟩ := List.exists_cons_of_ne_nil hcs
  rcases h with ⟨d, hd, hspace⟩ | ⟨after, h⟩
  · exact .inl ⟨d, hd, hspace⟩
  obtain ⟨rfl, htail⟩ := List.cons.inj h
  cases cs with
  | nil =>
    -- the second slash would stand behind the cut
    obtain rfl : '/' :: after = bs := htail
    exact absurd rfl (hb '/' rfl).2.2.2
  | cons d cs =>
    obtain ⟨rfl, -⟩ := List.cons.inj htail
    exact .inr ⟨cs, rfl⟩

/-! ## Gaps -/

/-- an open comment sees no more of what follows than whether it is a line feed -/
theorem IsGap.of_head? {g after after' : List Char} (h : IsGap g after)
    (hhead : ∀ c ∈ after'.head?, c ∈ after.head? ∨ c = '\n') : IsGap g after' := by
  induction h with
  | nil => exact .nil after'
  | space hc _ ih => exact .space hc (ih hhead)
  | @comment body g after hb hend _ ih =>
    refine .comment hb ?_ (ih hhead)
    intro c hc
    cases g with
    | nil => exact (hhead c hc).elim (hend c) id
    | cons d g => exact hend c hc

theorem IsGap.append {g g' after : List Char} (h : IsGap g (g' ++ after)) (h' : IsGap g' after) :
    IsGap (g ++ g') after := by
  generalize hrest : g' ++ after = rest at h
  induction h with
  | nil => exact h'
  | space hc _ ih => exact .space hc (ih hrest)
  | @comment body g rest hb hend _ ih =>
    subst hrest
    have hgap := ih rfl
    rw [List.cons_append, List.cons_append, List.append_assoc]
    exact .comment hb (by rwa [List.append_assoc]) hgap

theorem isGap_of_isSpace {g : List Char} (after : List Char) (h : ∀ c ∈ g, isSpace c = true) : IsGap g after := by
  induction g with
  | nil => exact .nil after
  | cons c g ih =>
    obtain ⟨hc, hg⟩ := List.forall_mem_cons.1 h
    exact .space hc (ih hg)

/-- without comments a gap is white space -/
theorem IsGap.isSpace_of_uncommented {g after : List Char} (h : IsGap g after) (hg : Uncommented g) :
    ∀ c ∈ g, isSpace c = true := by
  induction h with
  | nil => exact List.forall_mem_nil _
  | space hc _ ih => exact List.forall_mem_cons.2 ⟨hc, ih hg.tail⟩
  | comment => exact absurd ⟨rfl, rfl⟩ (List.isChain_cons_cons.1 hg).1

/-- a gap stays one when it is cut off and something else is put behind -/
theorem IsGap.of_cut {g after after' : List Char} (h : IsGap g after)
    (hopen : (∀ c ∈ after'.head?, c ∈ after.head? ∨ c = '\n') ∨ Uncommented g) : IsGap g after' := by
  rcases hopen with hfeed | hg
  · exact h.of_head? hfeed
  · exact isGap_of_isSpace after' (h.isSpace_of_uncommented hg)

/-! ## Layouts -/

namespace Layout

/-- a layout with a gap in front -/
def indent (g : List Char) : Layout → Layout
  | last g' => last (g ++ g')
  | next g' x rest => next (g ++ g') x rest

/-- a layout with another one behind; the gaps at the cut become one -/
def append : Layout → Layout → Layout
  | last g, lay => lay.indent g
  | next g x rest, lay => next g x (rest.append lay)

/-- the tokens of the lexemes of a text that begins at the location -/
def innerTokens (l : Location) : Layout → List Token
  | last _ => []
  | next g x rest => ⟨x.kind, String.ofList x.text, l.past g⟩ :: rest.innerTokens ((l.past g).past x.text)

theorem text_indent (g : List Char) (lay : Layout) : (lay.indent g).text = g ++ lay.text := by
  cases lay with
  | last g' => rfl
  | next g' x rest => exact List.append_assoc g g' _

theorem text_append (lay lay' : Layout) : (lay.append lay').text = lay.text ++ lay'.text := by
  induction lay with
  | last g => exact text_indent g lay'
  | next g x rest ih => simp [append, text, ih]

theorem tokens_indent (g : List Char) (lay : Layout) (l : Location) :
    (lay.indent g).tokens l = lay.tokens (l.past g) := by
  cases lay with
  | last g' => rw [indent, tokens, tokens, Location.past_append]
  | next g' x rest => rw [indent, tokens, tokens, Location.past_append]

/-- **Tokens of both.** They are those of the lexemes in front, then those behind, where the first text ends. -/
theorem tokens_append (lay lay' : Layout) (l : Location) :
    (lay.append lay').tokens l = lay.innerTokens l ++ lay'.tokens (l.past lay.text) := by
  induction lay generalizing l with
  | last g => exact tokens_indent g lay' l
  | next g x rest ih => rw [append, tokens, ih, innerTokens, text, Location.past_append, Location.past_append]; rfl

theorem tokens_eq (lay : Layout) (l : Location) :
    lay.tokens l = lay.innerTokens l ++ [⟨.endOfInput, "", l.past lay.text⟩] := by
  induction lay generalizing l with
  | last g => rfl
  | next g x rest ih => rw [tokens, ih, innerTokens, text, Location.past_append, Location.past_append]; rfl

theorem Grammatical.kind_ne {lay : Layout} (h : lay.Grammatical) (l : Location) :
    ∀ t ∈ lay.innerTokens l, t.kind ≠ .endOfInput := by
  induction h generalizing l with
  | last => exact List.forall_mem_nil _
  | next _ _ hx _ ih => exact List.forall_mem_cons.2 ⟨hx.kind_ne, ih _⟩

theorem Grammatical.indent {g : List Char} {lay : Layout} (hg : IsGap g lay.text) (h : lay.Grammatical) :
    (lay.indent g).Grammatical := by
  cases h with
  | last hg' => exact .last (IsGap.append (by rwa [List.append_nil]) hg')
  | next hg' hs hx hr => exact .next (hg.append hg') hs hx hr

/-- **One layout behind the other.** Where the text of the second may be put behind that of the first, the layouts make
up the layout of both. -/
theorem Grammatical.append {lay lay' : Layout} (h : lay.Grammatical) (h' : lay'.Grammatical)
    (hbreaks : ∀ c ∈ lay'.text.head?, Breaks c)
    (hopen : (∀ c ∈ lay'.text.head?, c = '\n') ∨ Uncommented lay.text) : (lay.append lay').Grammatical := by
  induction h with
  | last hg => exact .indent (hg.of_cut (hopen.imp_left fun hfeed c hc => .inr (hfeed c hc))) h'
  | @next g x rest hg hs hx hr ih =>
    have hrest : (∀ c ∈ lay'.text.head?, c = '\n') ∨ Uncommented rest.text :=
      hopen.imp_right fun hu => (List.IsChain.right_of_append hu).right_of_append
    have htext : x.text ++ (rest.append lay').text = (x.text ++ rest.text) ++ lay'.text := by
      rw [text_append, List.append_assoc]
    have hne : x.text ++ rest.text ≠ [] := List.append_ne_nil_of_left_ne_nil hx.text_ne_nil _
    refine .next ?_ ?_ ?_ (ih hrest)
    · rw [htext]
      refine hg.of_head? fun c hc => .inl ?_
      rwa [List.head?_append_of_ne_nil _ hne] at hc
    · rw [htext]
      exact fun hstart => hs (hstart.of_append hne hbreaks)
    · rw [text_append]
      exact hx.append hbreaks

end Layout

/-! ## Farther down -/

theorem map_mapIdx {α β γ : Type} (f : ℕ → α → β) (g : β → γ) (xs : List α) :
    (xs.mapIdx f).map g = xs.mapIdx fun i a => g (f i a) :=
  List.ext_getElem (by simp) (by simp)

/-- the location `d` lines farther down -/
def Location.lower (d : ℤ) (l : Location) : Location := ⟨l.line + d, l.column⟩

def Token.lower (d : ℤ) (t : Token) : Token := { t with location := t.location.lower d }

theorem Location.past_lower (d : ℤ) (l : Location) (cs : List Char) :
    (l.lower d).past cs = (l.past cs).lower d := by
  induction cs generalizing l with
  | nil => rfl
  | cons c cs ih =>
    have hafter : (l.lower d).after c = (l.after c).lower d := by
      unfold after
      split
      · simp only [lower, Location.mk.injEq, and_true]
        omega
      · rfl
    calc (l.lower d).past (c :: cs) = ((l.lower d).after c).past cs := rfl
      _ = ((l.after c).lower d).past cs := by rw [hafter]
      _ = ((l.after c).past cs).lower d := ih _

theorem Layout.tokens_lower (lay : Layout) (d : ℤ) (l : Location) :
    lay.tokens (l.lower d) = (lay.tokens l).map (Token.lower d) := by
  induction lay generalizing l with
  | last g => simp [tokens, Token.lower, Location.past_lower]
  | next g x rest ih => simp [tokens, Token.lower, Location.past_lower, ih]

/-- behind a line feed a source goes on as if it began there, as many lines farther down -/
theorem past_feed (cs : List Char) :
    Location.start.past (cs ++ ['\n']) = Location.start.lower (1 + cs.count '\n') := by
  rw [past_start, lineStart_feed]
  simp only [List.count_append, List.count_singleton_self, List.length_append, List.length_singleton, Location.lower,
    Location.start, Location.mk.injEq]
  omega

/-- **Sources on lines of their own.** With a line feed in between, the tokens of two sources are those of the first in
front of its end, then those of the second, farther down. -/
theorem tokens_append_feed {source : String} {ts : List Token} {last : Token} (source' : String)
    (h : tokens source = ts ++ [last]) :
    tokens (source ++ "\n" ++ source') = ts ++ (tokens source').map (Token.lower (1 + source.toList.count '\n')) := by
  obtain ⟨lay, hlay, htext⟩ := exists_layout source.toList
  obtain ⟨lay', hlay', htext'⟩ := exists_layout source'.toList
  have hinner : ts = lay.innerTokens .start := by
    rw [tokens_of_layout hlay htext, Layout.tokens_eq] at h
    exact (List.append_inj' h rfl).1.symm
  have hfeed : (lay'.indent ['\n']).text = '\n' :: source'.toList := by
    rw [Layout.text_indent, htext']
    rfl
  have hhead : ∀ c ∈ (lay'.indent ['\n']).text.head?, c = '\n' := by
    rw [hfeed]
    intro c hc
    exact (Option.some.inj hc).symm
  have hgrammatical : (lay.append (lay'.indent ['\n'])).Grammatical := by
    apply hlay.append
    · exact .indent (.space (by decide) (.nil _)) hlay'
    · intro c hc
      rw [hhead c hc]
      decide
    · exact .inl hhead
  have hboth : (lay.append (lay'.indent ['\n'])).text = (source ++ "\n" ++ source').toList := by
    rw [Layout.text_append, hfeed, htext]
    simp
  rw [tokens_of_layout hgrammatical hboth, Layout.tokens_append, Layout.tokens_indent, ← Location.past_append, htext,
    past_feed, Layout.tokens_lower, tokens_of_layout hlay' htext', hinner]

end LetFront
