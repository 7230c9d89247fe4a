/-
Printing and reading again. A let statement with any expression as its value is printed on one line, and that line is
read as a let statement again: the value is skipped, whatever it is, and the semicolon behind it is the first one. So
a printed program has a statement a line.

An expression never brings a semicolon, a line feed or a comment into the text. That is what `Inert` says; texts put one
behind the other keep it, because none of them begins with a slash.

Main statements: `isName_iff`, a name is what the scanner takes for one; `Node.IsExpression.inert`, an expression is
printed without any of these; `LetTree.exists_segment_render`, a printed statement is one segment;
`ofString_lines`, a printed program is read a line at a time; `ofString_undoes_render`, what is printed is read again,
and reading and printing once more changes nothing.
-/
import LetFront.Program.Render
import LetFront.Proofs.Program.Boundary
import LetFront.Proofs.Program.Order
import LetFront.Proofs.Text.Brackets
import LetFront.Proofs.Token.Spacing

namespace LetFront

/-! ## Names -/

/-- a word that does not begin with a digit and is no keyword -/
structure IsName (name : String) : Prop where
  ne_nil : name.toList ≠ []
  wordChars : ∀ c ∈ name.toList, isWordChar c = true
  head : ∀ c ∈ name.toList.head?, isDigit c = false
  noKeyword : keywords.lookup name = none

theorem not_startsGap_cons {c : Char} (cs : List Char) (h : isWordChar c = true) : ¬ StartsGap (c :: cs) := by
  rintro (⟨d, hd, hspace⟩ | ⟨ds, heq⟩)
  · cases hd
    rw [(Breaks.of_isSpace hspace).1] at h
    cases h
  · obtain ⟨rfl, -⟩ := List.cons.inj heq
    exact absurd h (by decide)

/-- **Names are what the scanner takes for one.** -/
theorem isName_iff (name : String) : IsName name ↔ IsLexeme ⟨.identifier, name.toList⟩ := by
  constructor
  · intro h
    obtain ⟨c, cs, hcs⟩ := List.exists_cons_of_ne_nil h.ne_nil
    have hkind : wordKind (String.ofList (c :: cs)) = .identifier := by
      rw [← hcs, String.ofList_toList, wordKind, h.noKeyword]
      rfl
    have hword := h.wordChars
    have hhead := h.head
    rw [hcs] at hword hhead ⊢
    refine isLexeme_of_fits ?_ (not_startsGap_cons cs (hword c List.mem_cons_self))
    rw [← hkind]
    exact .word hword (hhead c rfl) (by simp)
  · intro h
    obtain ⟨hfits, -⟩ := h.fits
    rcases hfits.word_or_number (by simp) with ⟨hkind, hword, hhead⟩ | ⟨hne, -⟩
    · refine ⟨hfits.text_ne_nil, hword, hhead, ?_⟩
      simp only [String.ofList_toList, wordKind] at hkind
      cases hk : keywords.lookup name with
      | none => rfl
      | some k =>
        have hkeywords : ∀ p ∈ keywords, p.2 ≠ .identifier := by decide
        rw [hk] at hkind
        exact absurd hkind.symm (hkeywords _ (Lexeme.mem_of_lookup hk))
    · exact absurd rfl hne

/-! ## Expressions -/

/-- operators as they are written -/
def operators : List String := ["+", "-", "*", "/", "!", "=", "==", "!=", "<", "<=", ">", ">="]

/-- an expression: its names and numbers are lexemes, and its operators are among those of the language -/
inductive Node.IsExpression : Node → Prop
  | placeholder : IsExpression .placeholder
  | identifier (token : Token) {value : String} (hv : IsName value) : IsExpression (.identifier token value)
  | integer {token : Token} (value : ℤ) (hl : IsLexeme ⟨.int, token.literal.toList⟩) :
      IsExpression (.integer token value)
  | float {token : Token} (value : Float) (hl : IsLexeme ⟨.float, token.literal.toList⟩) :
      IsExpression (.float token value)
  | boolean {token : Token} (value : Bool) (hl : token.literal = "true" ∨ token.literal = "false") :
      IsExpression (.boolean token value)
  | unary {token : Token} {right : Node} (ho : token.literal ∈ operators) (hr : IsExpression right) :
      IsExpression (.unary token right)
  | binary {token : Token} {left right : Node} (ho : token.literal ∈ operators) (hl : IsExpression left)
      (hr : IsExpression right) : IsExpression (.binary token left right)
  | call (token : Token) {function : Node} {arguments : List Node} (hf : IsExpression function)
      (ha : ∀ a ∈ arguments, IsExpression a) : IsExpression (.call token function arguments)

/-- no semicolon, no line feed and no comment, nor half of one in front -/
structure Inert (cs : List Char) : Prop where
  semicolon : ';' ∉ cs
  feed : '\n' ∉ cs
  uncommented : Uncommented cs
  head : cs.head? ≠ some '/'

instance (cs : List Char) : Decidable (Inert cs) :=
  decidable_of_iff
    (';' ∉ cs ∧ '\n' ∉ cs ∧ cs.IsChain (fun c d => ¬ (c = '/' ∧ d = '/')) ∧ cs.head? ≠ some '/')
    ⟨fun ⟨h1, h2, h3, h4⟩ => ⟨h1, h2, h3, h4⟩, fun h => ⟨h.semicolon, h.feed, h.uncommented, h.head⟩⟩

theorem Inert.append {as bs : List Char} (ha : Inert as) (hb : Inert bs) : Inert (as ++ bs) where
  semicolon := by simp [ha.semicolon, hb.semicolon]
  feed := by simp [ha.feed, hb.feed]
  uncommented := by
    refine List.IsChain.append ha.uncommented hb.uncommented ?_
    rintro c - d hd ⟨-, rfl⟩
    exact hb.head hd
  head := by
    intro h
    rcases mem_head?_append h with h | h
    · exact ha.head h
    · exact hb.head h

theorem inert_of_plain {cs : List Char} (h : ∀ c ∈ cs, c ≠ ';' ∧ c ≠ '\n' ∧ c ≠ '/') : Inert cs where
  semicolon hc := (h _ hc).1 rfl
  feed hc := (h _ hc).2.1 rfl
  uncommented := by
    have hpairwise : cs.Pairwise fun c d => ¬ (c = '/' ∧ d = '/') :=
      List.pairwise_of_forall_mem_list fun c hc _ _ heq => (h c hc).2.2 heq.1
    exact hpairwise.isChain
  head hc := (h _ (List.mem_of_mem_head? hc)).2.2 rfl

/-- names and numbers are made of word characters and points -/
theorem IsLexeme.wordChar_or_point {x : Lexeme} (h : IsLexeme x) (hk : x.kind ∈ [.identifier, .int, .float]) :
    ∀ c ∈ x.text, isWordChar c = true ∨ c = '.' := by
  rcases h.fits.1.word_or_number hk with ⟨-, hword, -⟩ | ⟨-, hnumber⟩
  · exact fun c hc => .inl (hword c hc)
  · exact fun c hc => (hnumber c hc).imp_left Lexeme.isWordChar_of_isDigit

theorem IsLexeme.inert {x : Lexeme} (h : IsLexeme x) (hk : x.kind ∈ [.identifier, .int, .float]) : Inert x.text := by
  refine inert_of_plain fun c hc => ?_
  rcases h.wordChar_or_point hk c hc with hword | rfl
  · refine ⟨?_, ?_, ?_⟩ <;>
    · rintro rfl
      exact absurd hword (by decide)
  · decide

/-- an operator is inert behind a space or a parenthesis, though a slash alone is not -/
theorem inert_operator : ∀ o ∈ operators, Inert (' ' :: o.toList) ∧ Inert ('(' :: o.toList) := by decide

/-- **Expressions are inert**, whatever is in them. -/
theorem Node.IsExpression.inert {n : Node} (h : n.IsExpression) : Inert n.render.toList := by
  have hopen : Inert ['('] := by decide
  have hclose : Inert [')'] := by decide
  have hspace : Inert [' '] := by decide
  induction h with
  | placeholder => decide
  | identifier _ hv => exact ((isName_iff _).1 hv).inert (by simp)
  | integer _ hl => exact hl.inert (by simp)
  | float _ hl => exact hl.inert (by simp)
  | boolean _ hl =>
    rw [render]
    rcases hl with hl | hl <;> rw [hl] <;> decide
  | unary ho _ ih => simpa [render] using ((inert_operator _ ho).2.append ih).append hclose
  | binary ho _ _ ihl ihr =>
    -- the operator goes with the space in front of it
    have hleft := (hopen.append ihl).append (inert_operator _ ho).1
    simpa [render] using ((hleft.append hspace).append ihr).append hclose
  | @call token function arguments _ _ ihf iha =>
    have hsep : Inert ", ".toList := by decide
    have harguments : Inert (", ".toList.intercalate (arguments.map fun a => a.render.toList)) := by
      refine Text.intercalate_of_append (by decide) (fun _ _ => Inert.append) hsep ?_
      intro x hx
      obtain ⟨a, ha, rfl⟩ := List.mem_map.1 hx
      exact iha a ha
    rw [render, renderAll_eq_map]
    simpa [String.toList_intercalate, Function.comp_def] using ((ihf.append hopen).append harguments).append hclose

/-! ## Statements -/

/-- a let statement with a whole expression for its value -/
structure LetTree where
  keyword : Token
  nameToken : Token
  name : String
  value : Node
  keyword_literal : keyword.literal = "let"
  isName : IsName name
  isExpression : value.IsExpression

theorem Layout.Grammatical.kind_ne_semicolon {lay : Layout} (h : lay.Grammatical) (htext : ';' ∉ lay.text)
    (l : Location) : ∀ t ∈ lay.innerTokens l, t.kind ≠ .semicolon := by
  induction h generalizing l with
  | last => exact List.forall_mem_nil _
  | @next g x rest _ _ hx _ ih =>
    simp only [text, List.mem_append, not_or] at htext
    refine List.forall_mem_cons.2 ⟨?_, ih htext.2.2 _⟩
    intro hk
    have hsemicolon : x.text = ";".toList := hx.text_eq hk (by decide) (by decide)
    exact htext.2.1 (by simp [hsemicolon])

/-- the lexemes that every let statement has -/
theorem isLexeme_of_statement :
    IsLexeme ⟨.letWord, ['l', 'e', 't']⟩ ∧ IsLexeme ⟨.assign, ['=']⟩ ∧ IsLexeme ⟨.semicolon, [';']⟩ := by
  have htokens : tokens "let = ;" =
      [⟨.letWord, "let", ⟨1, 0⟩⟩, ⟨.assign, "=", ⟨1, 4⟩⟩, ⟨.semicolon, ";", ⟨1, 6⟩⟩, ⟨.endOfInput, "", ⟨1, 7⟩⟩] := by
    cbv
  refine ⟨⟨"let = ;", ?_⟩, ⟨"let = ;", ?_⟩, ⟨"let = ;", ?_⟩⟩ <;>
  · rw [htokens]
    decide

namespace LetTree

def node (s : LetTree) : Node := .letStatement s.keyword (.identifier s.nameToken s.name) s.value

/-- what the statement is read as when it stands at the front of a line -/
def onLine (s : LetTree) (line : ℤ) : Binding :=
  ⟨⟨.letWord, "let", ⟨line, 0⟩⟩, ⟨.identifier, s.name, ⟨line, 4⟩⟩⟩

theorem render_node (s : LetTree) :
    s.node.render = "let" ++ " " ++ s.name ++ " = " ++ s.value.render ++ ";" := by
  rw [node, Node.render, Node.render, s.keyword_literal]

theorem toList_render (s : LetTree) :
    s.node.render.toList =
      ['l', 'e', 't'] ++ ([' '] ++ (s.name.toList ++
        ([' '] ++ (['='] ++ ((' ' :: s.value.render.toList) ++ [';']))))) := by
  simp [render_node]

theorem feed_not_mem (s : LetTree) : '\n' ∉ s.node.render.toList := by
  have hname := ((isName_iff _).1 s.isName).inert (by simp)
  simp [toList_render, hname.feed, s.isExpression.inert.feed]

/-- the layout of the printed statement, with one of its value and the space in front of that -/
def layout (s : LetTree) (value : Layout) : Layout :=
  .next [] ⟨.letWord, ['l', 'e', 't']⟩ (.next [' '] ⟨.identifier, s.name.toList⟩ (.next [' '] ⟨.assign, ['=']⟩
    (value.append (.next [] ⟨.semicolon, [';']⟩ (.last [])))))

theorem text_layout {s : LetTree} {value : Layout} (h : value.text = ' ' :: s.value.render.toList) :
    (s.layout value).text = s.node.render.toList := by
  simp [layout, Layout.text, Layout.text_append, toList_render, h]

theorem grammatical_layout {s : LetTree} {value : Layout} (hvalue : value.Grammatical)
    (h : value.text = ' ' :: s.value.render.toList) : (s.layout value).Grammatical := by
  obtain ⟨hlet, hassign, hsemicolon⟩ := isLexeme_of_statement
  have hname := (isName_iff _).1 s.isName
  have hgap : ClosedGap [' '] := isSeparator_space.closedGap
  have hbreaks : ∀ cs, ∀ c ∈ (' ' :: cs).head?, Breaks c := isSeparator_space.breaks
  have hspace : Inert [' '] := by decide
  have huncommented : Uncommented value.text := h ▸ (hspace.append s.isExpression.inert).uncommented
  have hend : (Layout.next [] ⟨.semicolon, [';']⟩ (.last [])).Grammatical :=
    (Layout.Grammatical.last (.nil [])).cons hsemicolon .nil (by simp [Layout.text])
  have hbody : (value.append (.next [] ⟨.semicolon, [';']⟩ (.last []))).Grammatical := by
    refine hvalue.append hend ?_ (.inr huncommented)
    intro c hc
    cases hc
    decide
  have hhead : ∀ c ∈ (value.append (.next [] ⟨.semicolon, [';']⟩ (.last []))).text.head?, Breaks c := by
    rw [Layout.text_append, h]
    exact hbreaks _
  exact ((hbody.cons hassign hgap hhead).cons hname hgap (hbreaks _)).cons hlet .nil (hbreaks _)

/-- **A printed statement is one segment**, and ends with a semicolon. -/
theorem exists_segment_render (s : LetTree) :
    ∃ seg last, tokens s.node.render = seg ++ [last] ∧ Segment seg [last] (.ok (s.onLine 1).node) ∧ Terminated seg := by
  obtain ⟨value, hvalue, htext⟩ := exists_layout (' ' :: s.value.render.toList)
  have hsemicolon : ';' ∉ value.text := by simp [htext, s.isExpression.inert.semicolon]
  let equals : Location := (Location.past ⟨1, 4⟩ s.name.toList).past [' ']
  let behind : Location := equals.past ['=']
  let statement : List Token :=
    (s.onLine 1).keyword :: (s.onLine 1).name :: ⟨.assign, "=", equals⟩ :: value.innerTokens behind
  let semicolon : Token := ⟨.semicolon, ";", behind.past value.text⟩
  let last : Token := ⟨.endOfInput, "", (behind.past value.text).past [';']⟩
  have htokens : tokens s.node.render = (statement ++ [semicolon]) ++ [last] :=
    calc tokens s.node.render
        = (s.layout value).tokens .start := tokens_of_layout (grammatical_layout hvalue htext) (text_layout htext)
      _ = (statement ++ [semicolon]) ++ [last] := by
        simp only [layout, Layout.tokens, Layout.tokens_append, String.ofList_toList, List.append_assoc]
        rfl
  exact ⟨statement ++ [semicolon], last, htokens,
    .binding [last] rfl rfl rfl (hvalue.kind_ne_semicolon hsemicolon behind) rfl, statement, semicolon, rfl, rfl⟩

/-- a printed statement alone -/
theorem ofString_render (s : LetTree) : Program.ofString s.node.render = ⟨[s.onLine 1], []⟩ := by
  obtain ⟨seg, last, htokens, hseg, -⟩ := s.exists_segment_render
  obtain ⟨hts, hlast⟩ := kinds_of_tokens htokens
  have hflat : [(seg, Except.ok (s.onLine 1).node)].flatMap (Prod.fst (β := Reading)) = seg := List.flatMap_singleton ..
  obtain ⟨hstatements, herrors⟩ := ofSource_of_divides (.cons hseg .nil) (atEnd_singleton hlast) (by rwa [hflat])
    (by rw [hflat]; exact htokens)
  exact Program.eq_of_node hstatements herrors

/-- a printed statement with other lines below -/
theorem ofString_render_feed (s : LetTree) (source : String) :
    Program.ofString (s.node.render ++ "\n" ++ source) =
      (Program.ofString s.node.render).append ((Program.ofString source).lower 1) := by
  obtain ⟨seg, last, htokens, -, hterminated⟩ := s.exists_segment_render
  have hcount : s.node.render.toList.count '\n' = 0 := List.count_eq_zero.2 s.feed_not_mem
  rw [ofString_feed source htokens (.inr hterminated), hcount, Nat.cast_zero, add_zero]

end LetTree

/-- **A printed program is read as its statements**, one on each line. -/
theorem ofString_lines (ss : List LetTree) :
    Program.ofString (String.intercalate "\n" (ss.map fun s => s.node.render)) =
      ⟨ss.mapIdx fun i s => s.onLine (i + 1), []⟩ := by
  induction ss with
  | nil => cbv
  | cons s ss ih =>
    cases ss with
    | nil => simpa using s.ofString_render
    | cons s' ss =>
      have hbelow : ((s' :: ss).mapIdx fun i s => s.onLine (i + 1)).map (Binding.lower 1) =
          (s' :: ss).mapIdx fun i s => s.onLine ((i + 1 : ℕ) + 1) := map_mapIdx _ _ _
      calc Program.ofString (String.intercalate "\n" ((s :: s' :: ss).map fun s => s.node.render))
          = Program.ofString (s.node.render ++ "\n" ++
              String.intercalate "\n" ((s' :: ss).map fun s => s.node.render)) := by
            rw [List.map_cons, List.map_cons, String.intercalate_cons_cons]
        _ = Program.append ⟨[s.onLine 1], []⟩
              (Program.lower 1 ⟨(s' :: ss).mapIdx fun i s => s.onLine (i + 1), []⟩) := by
            rw [s.ofString_render_feed, s.ofString_render, ih]
        _ = ⟨(s :: s' :: ss).mapIdx fun i s => s.onLine (i + 1), []⟩ := by
            rw [List.mapIdx_cons (a := s), ← hbelow]
            rfl

theorem render_program (ss : List LetTree) (es : List ParseError) :
    (Node.program (ss.map LetTree.node) es).render = String.intercalate "\n" (ss.map fun s => s.node.render) := by
  rw [Node.render, Node.renderAll_eq_map, List.map_map]
  rfl

/-! ## Sources -/

/-- a statement that was read has its two tokens in the source -/
theorem mem_tokens_of_mem_statements {source : String} {b : Binding} (h : b ∈ (Program.ofString source).statements) :
    b.keyword ∈ tokens source ∧ b.keyword.kind = .letWord ∧ b.name ∈ tokens source ∧ b.name.kind = .identifier := by
  obtain ⟨ps, hps, hflat, hstatements, -⟩ := exists_division_ofString source
  have hnode : b.node ∈ statementsOf ps := hstatements ▸ List.mem_map_of_mem h
  obtain ⟨⟨seg, r⟩, hp, hr⟩ := List.mem_filterMap.1 hnode
  have hsegment : ∀ t ∈ seg, t ∈ tokens source := by
    intro t ht
    rw [← front_append_back (tokens source), ← hflat]
    exact List.mem_append_left _ (List.mem_flatMap.2 ⟨_, hp, ht⟩)
  cases r with
  | error e => cases hr
  | ok n =>
    obtain rfl : n = b.node := Option.some.inj hr
    obtain ⟨after, hseg⟩ := hps.segment _ hp
    obtain ⟨a, v, s, rfl, hkeyword, hname⟩ := hseg.of_node
    exact ⟨hsegment _ (by simp), hkeyword, hsegment _ (by simp), hname⟩

/-- a statement that was read has the keyword and a name -/
theorem literal_of_mem_statements {source : String} {b : Binding} (h : b ∈ (Program.ofString source).statements) :
    b.keyword.literal = "let" ∧ IsName b.name.literal := by
  obtain ⟨hk, hkeyword, hn, hname⟩ := mem_tokens_of_mem_statements h
  have hlet : IsLexeme b.keyword.lexeme := ⟨source, b.keyword, hk, by rw [hkeyword]; decide, rfl⟩
  have hidentifier : IsLexeme b.name.lexeme := ⟨source, b.name, hn, by rw [hname]; decide, rfl⟩
  refine ⟨?_, (isName_iff _).2 ?_⟩
  · exact String.toList_inj.1 (hlet.fits.1.text_eq hkeyword (by decide) (by decide))
  · rwa [Token.lexeme, hname] at hidentifier

/-- the statements that were read, as trees; their values are placeholders -/
theorem exists_trees (source : String) :
    ∃ ss : List LetTree, ss.map LetTree.node = (Program.ofString source).statements.map Binding.node ∧
      ss.map LetTree.name = (Program.ofString source).statements.map (fun b => b.name.literal) ∧
      ∀ s ∈ ss, s.value = .placeholder := by
  have hliterals : ∀ b ∈ (Program.ofString source).statements, b.keyword.literal = "let" ∧ IsName b.name.literal :=
    fun b => literal_of_mem_statements
  let tree (b : Binding) (h : b.keyword.literal = "let" ∧ IsName b.name.literal) : LetTree :=
    ⟨b.keyword, b.name, b.name.literal, .placeholder, h.1, h.2, .placeholder⟩
  refine ⟨(Program.ofString source).statements.pmap tree hliterals, ?_, ?_, ?_⟩
  · rw [List.map_pmap]
    exact List.pmap_eq_map (f := Binding.node) hliterals
  · rw [List.map_pmap]
    exact List.pmap_eq_map hliterals
  · intro s hs
    obtain ⟨b, hb, rfl⟩ := List.mem_pmap.1 hs
    rfl

theorem map_mapIdx_onLine {α : Type} {ss : List LetTree} {f : Binding → α} {g : LetTree → α}
    (h : ∀ s ∈ ss, ∀ line, f (s.onLine line) = g s) : (ss.mapIdx fun i s => s.onLine (i + 1)).map f = ss.map g := by
  rw [map_mapIdx]
  exact List.ext_getElem (by simp) (by simp [h])

/-- **Reading undoes printing.** Let statements with any expressions for their values are printed a statement a line,
and read again with their names, each on its line, without errors. So the program of a source is printed and read
without errors: it binds the same names in the same order, and is printed the same again. -/
theorem ofString_undoes_render :
    (∀ (ss : List LetTree) (es : List ParseError),
      Program.ofString (Node.program (ss.map LetTree.node) es).render =
        ⟨ss.mapIdx fun i s => s.onLine (i + 1), []⟩) ∧
    ∀ source,
      (Program.ofString (Program.ofString source).render).ok = true ∧
      (Program.ofString (Program.ofString source).render).statements.map (fun b => b.name.literal) =
        (Program.ofString source).statements.map (fun b => b.name.literal) ∧
      (Program.ofString (Program.ofString source).render).render = (Program.ofString source).render := by
  refine ⟨?_, ?_⟩
  · intro ss es
    rw [render_program, ofString_lines]
  · intro source
    obtain ⟨ss, hnodes, hnames, hvalues⟩ := exists_trees source
    have hrender : (Program.ofString source).render = String.intercalate "\n" (ss.map fun s => s.node.render) := by
      rw [Program.render, Program.node, ← hnodes, render_program]
    have hread : Program.ofString (Program.ofString source).render = ⟨ss.mapIdx fun i s => s.onLine (i + 1), []⟩ := by
      rw [hrender, ofString_lines]
    have hagain : ∀ s ∈ ss, ∀ line, (s.onLine line).render = s.node.render := by
      intro s hs line
      rw [s.render_node, hvalues s hs]
      rfl
    rw [hread]
    refine ⟨rfl, ?_, ?_⟩
    · rw [← hnames]
      exact map_mapIdx_onLine fun s _ line => rfl
    · rw [hrender, ← map_mapIdx_onLine hagain, Program.render, Program.node, Node.render, Node.renderAll_eq_map,
        List.map_map]
      rfl

/-- a slash in front of an operation, a number that ends with its point, and points that are no lexeme of their own -/
theorem ofString_undoes_render_of_slash :
    ∃ s : LetTree, s.node.render = "let x = (/(f(1., ...) == true));" ∧
      Program.ofString (Node.program [s.node, s.node] []).render = ⟨[s.onLine 1, s.onLine 2], []⟩ := by
  have htokens : tokens "x f 1." =
      [⟨.identifier, "x", ⟨1, 0⟩⟩, ⟨.identifier, "f", ⟨1, 2⟩⟩, ⟨.float, "1.", ⟨1, 4⟩⟩, ⟨.endOfInput, "", ⟨1, 6⟩⟩] := by
    cbv
  have hname : IsName "x" := (isName_iff _).2 ⟨"x f 1.", by rw [htokens]; decide⟩
  have hfunction : IsName "f" := (isName_iff _).2 ⟨"x f 1.", by rw [htokens]; decide⟩
  have hnumber : IsLexeme ⟨.float, "1.".toList⟩ := ⟨"x f 1.", by rw [htokens]; decide⟩
  let call : Node := .call ⟨.leftParen, "(", .start⟩ (.identifier ⟨.identifier, "f", .start⟩ "f")
    [.float ⟨.float, "1.", .start⟩ 1, .placeholder]
  let value : Node := .unary ⟨.divide, "/", .start⟩
    (.binary ⟨.equalEqual, "==", .start⟩ call (.boolean ⟨.trueWord, "true", .start⟩ true))
  have hcall : call.IsExpression := by
    refine .call _ (.identifier _ hfunction) ?_
    simp only [List.forall_mem_cons]
    exact ⟨.float _ hnumber, .placeholder, List.forall_mem_nil _⟩
  have hvalue : value.IsExpression := .unary (by decide) (.binary (by decide) hcall (.boolean true (.inl rfl)))
  let s : LetTree :=
    ⟨⟨.letWord, "let", .start⟩, ⟨.identifier, "x", .start⟩, "x", value, rfl, hname, hvalue⟩
  exact ⟨s, by cbv, ofString_undoes_render.1 [s, s] []⟩

end LetFront
