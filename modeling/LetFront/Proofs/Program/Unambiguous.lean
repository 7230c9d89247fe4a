/-
Expressions are printed without ambiguity. From its text an expression is found again: its form, its names, the texts of
its numbers and operators, and its arguments. What is not written, the kinds and the locations of tokens and the values of
numbers, is not found, and `Node.bare` takes it out of a tree.

An atom is one lexeme, or three points. Every other expression ends in parentheses that belong to it, and it is an
operation if nothing stands in front of them, and else a call. The first character of an expression is never one of an
operator, so an operator ends where its operand begins; and an expression is sealed, so it ends where a space or a comma
follows it.

Main statements: `Node.bare_render`, what is taken out is not written; `bare_eq_of_atom`, atoms with the same text;
`Node.Encloses.unique`, the last parentheses of a text; `Node.IsExpression.sealed` and `Node.IsExpression.exists_head`,
where an expression ends and how it begins; `operator_append_inj`, the end of an operator; `render_eq_iff`, trees with the
same text.
-/
import LetFront.Proofs.Program.Reprint

namespace LetFront

/-! ## What is written of a tree -/

/-- a token of which only the literal is left -/
def Token.bare (t : Token) : Token := ⟨.illegal, t.literal, .start⟩

/-- stands for a token that is not written -/
def unwritten : Token := ⟨.illegal, "", .start⟩

mutual

/-- a tree without what is not written of it -/
def Node.bare : Node → Node
  | .placeholder => .placeholder
  | .identifier _ value => .identifier unwritten value
  | .integer token _ => .integer token.bare 0
  | .float token _ => .float token.bare 0
  | .boolean token _ => .boolean token.bare true
  | .unary token right => .unary token.bare right.bare
  | .binary token left right => .binary token.bare left.bare right.bare
  | .call _ function arguments => .call unwritten function.bare (Node.bareAll arguments)
  | .letStatement token name value => .letStatement token.bare name.bare value.bare
  | .program statements _ => .program (Node.bareAll statements) []

def Node.bareAll : List Node → List Node
  | [] => []
  | n :: ns => n.bare :: Node.bareAll ns

end

theorem Node.bareAll_eq_map (ns : List Node) : Node.bareAll ns = ns.map Node.bare := by
  induction ns with
  | nil => rfl
  | cons n ns ih => simp [Node.bareAll, ih]

mutual

/-- **What is taken out is not written.** -/
theorem Node.bare_render (n : Node) : n.bare.render = n.render := by
  cases n with
  | placeholder | identifier | integer | float | boolean => rfl
  | unary token right => simp only [Node.bare, Node.render, Token.bare, right.bare_render]
  | binary token left right => simp only [Node.bare, Node.render, Token.bare, left.bare_render, right.bare_render]
  | call token function arguments =>
    simp only [Node.bare, Node.render, function.bare_render, Node.bareAll_render arguments]
  | letStatement token name value =>
    simp only [Node.bare, Node.render, Token.bare, name.bare_render, value.bare_render]
  | program statements errors => simp only [Node.bare, Node.render, Node.bareAll_render statements]

theorem Node.bareAll_render (ns : List Node) : Node.renderAll (Node.bareAll ns) = Node.renderAll ns := by
  cases ns with
  | nil => rfl
  | cons n ns => simp only [Node.bareAll, Node.renderAll, n.bare_render, Node.bareAll_render ns]

end

/-! ## Forms -/

/-- whether a tree ends in parentheses of its own -/
def Node.isEnclosed : Node → Bool
  | .unary _ _ => true
  | .binary _ _ _ => true
  | .call _ _ _ => true
  | _ => false

/-- induction on expressions, the atoms together -/
@[elab_as_elim]
theorem Node.IsExpression.form_induction {motive : (n : Node) → n.IsExpression → Prop}
    (atom : ∀ {n : Node} (h : n.IsExpression), n.isEnclosed = false → motive n h)
    (unary : ∀ {token : Token} {right : Node} (ho : token.literal ∈ operators) (hr : right.IsExpression),
      motive right hr → motive _ (.unary ho hr))
    (binary : ∀ {token : Token} {left right : Node} (ho : token.literal ∈ operators) (hl : left.IsExpression)
      (hr : right.IsExpression), motive left hl → motive right hr → motive _ (.binary ho hl hr))
    (call : ∀ (token : Token) {function : Node} {arguments : List Node} (hf : function.IsExpression)
      (ha : ∀ a ∈ arguments, a.IsExpression), motive function hf → (∀ a (hmem : a ∈ arguments), motive a (ha a hmem)) →
      motive _ (.call token hf ha))
    {n : Node} (h : n.IsExpression) : motive n h := by
  induction h with
  | placeholder => exact atom .placeholder rfl
  | identifier token hv => exact atom (.identifier token hv) rfl
  | integer value hl => exact atom (.integer value hl) rfl
  | float value hl => exact atom (.float value hl) rfl
  | boolean value hl => exact atom (.boolean value hl) rfl
  | unary ho hr ih => exact unary ho hr ih
  | binary ho hl hr ihl ihr => exact binary ho hl hr ihl ihr
  | call token hf ha ihf iha => exact call token hf ha ihf iha

/-! ## Atoms -/

/-- the atom that is written as a lexeme -/
def Node.ofLexeme (x : Lexeme) : Node :=
  match x.kind with
  | .identifier => .identifier unwritten (String.ofList x.text)
  | .int => .integer ⟨.illegal, String.ofList x.text, .start⟩ 0
  | .float => .float ⟨.illegal, String.ofList x.text, .start⟩ 0
  | _ => .boolean ⟨.illegal, String.ofList x.text, .start⟩ true

theorem isLexeme_of_boolean : IsLexeme ⟨.trueWord, "true".toList⟩ ∧ IsLexeme ⟨.falseWord, "false".toList⟩ := by
  have htokens : tokens "true false" =
      [⟨.trueWord, "true", ⟨1, 0⟩⟩, ⟨.falseWord, "false", ⟨1, 5⟩⟩, ⟨.endOfInput, "", ⟨1, 10⟩⟩] := by cbv
  refine ⟨⟨"true false", ?_⟩, ⟨"true false", ?_⟩⟩ <;>
  · rw [htokens]
    decide

/-- three points are no lexeme, for the second point ends a number -/
theorem IsLexeme.text_ne_points {x : Lexeme} (h : IsLexeme x) : x.text ≠ Node.placeholder.render.toList := by
  intro htext
  obtain ⟨c, cs, hcs, hfirst⟩ := Lexeme.first_of_fits h.fits.1
  rw [htext] at hcs
  obtain ⟨rfl, rfl⟩ := List.cons.inj hcs
  have htwo : x.text = ['.', '.'] := by
    rw [← hfirst]
    decide
  rw [htext] at htwo
  exact absurd htwo (by decide)

/-- an atom is the placeholder, or it is what its lexeme says -/
theorem Node.IsExpression.atom_cases {n : Node} (h : n.IsExpression) (hn : n.isEnclosed = false) :
    n = .placeholder ∨ ∃ x, IsLexeme x ∧ x.text = n.render.toList ∧ n.bare = .ofLexeme x := by
  cases h with
  | placeholder => exact .inl rfl
  | identifier token hv =>
    refine .inr ⟨_, (isName_iff _).1 hv, rfl, ?_⟩
    simp [bare, ofLexeme]
  | integer value hl =>
    refine .inr ⟨_, hl, rfl, ?_⟩
    simp [bare, ofLexeme, Token.bare]
  | float value hl =>
    refine .inr ⟨_, hl, rfl, ?_⟩
    simp [bare, ofLexeme, Token.bare]
  | @boolean token value hl =>
    obtain ⟨htrue, hfalse⟩ := isLexeme_of_boolean
    rcases hl with hl | hl
    · refine .inr ⟨_, htrue, ?_, ?_⟩
      · rw [render, hl]
      · simp [bare, ofLexeme, Token.bare, hl]
    · refine .inr ⟨_, hfalse, ?_, ?_⟩
      · rw [render, hl]
      · simp [bare, ofLexeme, Token.bare, hl]
  | unary => cases hn
  | binary => cases hn
  | call => cases hn

/-- **Atoms with the same text are the same.** -/
theorem bare_eq_of_atom {n n' : Node} (h : n.IsExpression) (h' : n'.IsExpression) (hn : n.isEnclosed = false)
    (hn' : n'.isEnclosed = false) (heq : n.render = n'.render) : n.bare = n'.bare := by
  rcases h.atom_cases hn with rfl | ⟨x, hx, htext, hbare⟩
  · rcases h'.atom_cases hn' with rfl | ⟨y, hy, htext', -⟩
    · rfl
    · rw [← heq] at htext'
      exact absurd htext' hy.text_ne_points
  · rcases h'.atom_cases hn' with rfl | ⟨y, hy, htext', hbare'⟩
    · rw [heq] at htext
      exact absurd htext hx.text_ne_points
    · have hxy : x = y := hx.eq_of_text_eq hy (by rw [htext, htext', heq])
      rw [hbare, hbare', hxy]

/-! ## Where an expression begins and ends -/

/-- a character of an atom -/
def isAtomChar (c : Char) : Bool := isWordChar c || c = '.'

/-- a character with which an expression may begin -/
def opensExpression (c : Char) : Bool := isAtomChar c || c = '('

theorem operator_ne_nil : ∀ o ∈ operators, o.toList ≠ [] := by decide

theorem operator_chars {o : String} (ho : o ∈ operators) :
    ∀ c ∈ o.toList, opensExpression c = false ∧ c ∉ ['(', ')', ' ', ','] := by
  have hall : ∀ o ∈ operators,
      o.toList.all (fun c => !opensExpression c && c ∉ ['(', ')', ' ', ',']) = true := by decide
  intro c hc
  simpa using List.all_eq_true.1 (hall o ho) c hc

theorem IsLexeme.isAtomChar {x : Lexeme} (h : IsLexeme x) (hk : x.kind ∈ [.identifier, .int, .float]) :
    ∀ c ∈ x.text, isAtomChar c = true := by
  intro c hc
  simpa [LetFront.isAtomChar] using h.wordChar_or_point hk c hc

theorem Node.IsExpression.isAtomChar {n : Node} (h : n.IsExpression) (hn : n.isEnclosed = false) :
    ∀ c ∈ n.render.toList, isAtomChar c = true := by
  cases h with
  | placeholder => exact List.all_eq_true.1 (by decide)
  | identifier _ hv => exact ((isName_iff _).1 hv).isAtomChar (by simp)
  | integer _ hl => exact hl.isAtomChar (by simp)
  | float _ hl => exact hl.isAtomChar (by simp)
  | boolean _ hl =>
    rw [render]
    rcases hl with hl | hl <;>
    · rw [hl]
      exact List.all_eq_true.1 (by decide)
  | unary => cases hn
  | binary => cases hn
  | call => cases hn

theorem not_mem_of_isAtomChar {c : Char} (h : isAtomChar c = true) : c ∉ ['(', ')', ' ', ','] := by
  intro hc
  simp only [List.mem_cons, List.not_mem_nil, or_false] at hc
  rcases hc with rfl | rfl | rfl | rfl <;> exact absurd h (by decide)

theorem operator_sealed {o : String} (ho : o ∈ operators) : Text.Sealed o.toList :=
  Text.sealed_of_plain fun c hc => (operator_chars ho c hc).2

/-- `n` ends in parentheses around `inner`, and `front` stands before them -/
structure Node.Encloses (n : Node) (front inner : List Char) : Prop where
  text : n.render.toList = front ++ '(' :: (inner ++ [')'])
  balanced : Text.Balanced inner

/-- the texts of arguments -/
def argumentTexts (arguments : List Node) : List (List Char) := arguments.map fun a => a.render.toList

namespace Node

theorem Encloses.unique {n n' : Node} {front front' inner inner' : List Char} (h : n.Encloses front inner)
    (h' : n'.Encloses front' inner') (heq : n.render = n'.render) : front = front' ∧ inner = inner' := by
  have htext := congrArg String.toList heq
  rw [h.text, h'.text] at htext
  exact Text.enclose_inj h.balanced h'.balanced htext

theorem Encloses.sealed {n : Node} {front inner : List Char} (h : n.Encloses front inner) (hf : Text.Sealed front) :
    Text.Sealed n.render.toList := by
  rw [h.text]
  exact hf.append h.balanced.enclose

theorem encloses_unary {token : Token} {right : Node} (ho : token.literal ∈ operators)
    (hr : Text.Balanced right.render.toList) :
    (unary token right).Encloses [] (token.literal.toList ++ right.render.toList) where
  text := by simp [render]
  balanced := (operator_sealed ho).toBalanced.append hr

theorem encloses_binary {token : Token} {left right : Node} (ho : token.literal ∈ operators)
    (hl : Text.Balanced left.render.toList) (hr : Text.Balanced right.render.toList) :
    (binary token left right).Encloses []
      (left.render.toList ++ ' ' :: (token.literal.toList ++ ' ' :: right.render.toList)) where
  text := by simp [render]
  balanced := by
    have hspace : Text.Balanced [' '] := Text.balanced_of_plain (List.forall_mem_singleton.2 (by decide))
    exact hl.append (hspace.append ((operator_sealed ho).toBalanced.append (hspace.append hr)))

theorem encloses_call (token : Token) (function : Node) {arguments : List Node}
    (ha : ∀ a ∈ arguments, Text.Balanced a.render.toList) :
    (call token function arguments).Encloses function.render.toList (Text.commas (argumentTexts arguments)) where
  text := by
    simp [render, renderAll_eq_map, Text.commas, argumentTexts, String.toList_intercalate, Function.comp_def]
  balanced := by
    apply Text.balanced_commas
    intro x hx
    obtain ⟨a, hmem, rfl⟩ := List.mem_map.1 hx
    exact ha a hmem

/-- **Expressions are sealed.** -/
theorem IsExpression.sealed {n : Node} (h : n.IsExpression) : Text.Sealed n.render.toList := by
  have hnil : Text.Sealed [] := Text.sealed_of_plain (List.forall_mem_nil _)
  induction h using IsExpression.form_induction with
  | atom h hn => exact Text.sealed_of_plain fun c hc => not_mem_of_isAtomChar (h.isAtomChar hn c hc)
  | unary ho _ ih => exact (encloses_unary ho ih.toBalanced).sealed hnil
  | binary ho _ _ ihl ihr => exact (encloses_binary ho ihl.toBalanced ihr.toBalanced).sealed hnil
  | call token _ _ ihf iha => exact (encloses_call token _ fun a ha => (iha a ha).toBalanced).sealed ihf

theorem IsExpression.balanced {n : Node} (h : n.IsExpression) : Text.Balanced n.render.toList := h.sealed.toBalanced

/-- only what is no atom has a parenthesis in it -/
theorem IsExpression.isEnclosed_iff {n : Node} (h : n.IsExpression) :
    n.isEnclosed = true ↔ '(' ∈ n.render.toList := by
  constructor
  · intro hn
    cases h with
    | unary => simp [render]
    | binary => simp [render]
    | call => simp [render]
    | _ => cases hn
  · intro hmem
    by_contra hn
    have hchar := h.isAtomChar (Bool.eq_false_iff.2 hn) _ hmem
    exact absurd hchar (by decide)

theorem IsExpression.isEnclosed_eq {n n' : Node} (h : n.IsExpression) (h' : n'.IsExpression)
    (heq : n.render = n'.render) : n.isEnclosed = n'.isEnclosed := by
  rw [Bool.eq_iff_iff, h.isEnclosed_iff, h'.isEnclosed_iff, heq]

/-- an expression begins with a character of an atom or with a parenthesis -/
theorem IsExpression.exists_head {n : Node} (h : n.IsExpression) :
    ∃ c cs, n.render.toList = c :: cs ∧ opensExpression c = true := by
  induction h using IsExpression.form_induction with
  | @atom n h hn =>
    have hne : n.render.toList ≠ [] := by
      rcases h.atom_cases hn with rfl | ⟨x, hx, htext, -⟩
      · decide
      · rw [← htext]
        exact hx.fits.1.text_ne_nil
    obtain ⟨c, cs, hcs⟩ := List.exists_cons_of_ne_nil hne
    have hchar := h.isAtomChar hn c (by simp [hcs])
    exact ⟨c, cs, hcs, by simp [opensExpression, hchar]⟩
  | unary ho hr => exact ⟨'(', _, (encloses_unary ho hr.balanced).text, by decide⟩
  | binary ho hl hr =>
    exact ⟨'(', _, (encloses_binary ho hl.balanced hr.balanced).text, by decide⟩
  | @call token function _ hf ha ihf =>
    obtain ⟨c, cs, hcs, hc⟩ := ihf
    have htext := (encloses_call token function fun a hmem => (ha a hmem).balanced).text
    rw [hcs, List.cons_append] at htext
    exact ⟨c, _, htext, hc⟩

theorem IsExpression.ne_nil {n : Node} (h : n.IsExpression) : n.render.toList ≠ [] := by
  obtain ⟨c, cs, hcs, -⟩ := h.exists_head
  rw [hcs]
  exact List.cons_ne_nil c cs

end Node

/-- the end of an operator is where its operand begins -/
theorem takeWhile_operator {o : String} (ho : o ∈ operators) {c : Char} (hc : opensExpression c = true) (cs : List Char) :
    (o.toList ++ c :: cs).takeWhile (!opensExpression ·) = o.toList := by
  have hall : ∀ d ∈ o.toList, (!opensExpression d) = true := by
    intro d hd
    simp [(operator_chars ho d hd).1]
  rw [List.takeWhile_append_of_pos hall]
  simp [hc]

/-- **An operator ends where its operand begins.** -/
theorem operator_append_inj {o o' : String} {n n' : Node} (ho : o ∈ operators) (ho' : o' ∈ operators)
    (h : n.IsExpression) (h' : n'.IsExpression)
    (heq : o.toList ++ n.render.toList = o'.toList ++ n'.render.toList) : o = o' ∧ n.render = n'.render := by
  obtain ⟨c, cs, hcs, hc⟩ := h.exists_head
  obtain ⟨d, ds, hds, hd⟩ := h'.exists_head
  have hfront := congrArg (List.takeWhile (!opensExpression ·)) heq
  rw [hcs, hds, takeWhile_operator ho hc, takeWhile_operator ho' hd] at hfront
  rw [hfront] at heq
  exact ⟨String.toList_inj.1 hfront, String.toList_inj.1 (List.append_cancel_left heq)⟩

/-- no expression begins with an operator -/
theorem operator_append_ne {o : String} {n : Node} (ho : o ∈ operators) (h : n.IsExpression) (as bs : List Char) :
    o.toList ++ as ≠ n.render.toList ++ bs := by
  intro heq
  obtain ⟨c, cs, hcs⟩ := List.exists_cons_of_ne_nil (operator_ne_nil o ho)
  obtain ⟨d, ds, hds, hd⟩ := h.exists_head
  have hc := (operator_chars ho c (by simp [hcs])).1
  rw [hcs, hds] at heq
  rw [(List.cons.inj heq).1, hd] at hc
  cases hc

/-! ## Trees with the same text -/

/-- what stands in the parentheses of an operation with two operands tells them apart -/
theorem binary_inj {o o' : String} {l l' r r' : Node} (ho : o ∈ operators) (ho' : o' ∈ operators)
    (hl : l.IsExpression) (hl' : l'.IsExpression)
    (heq : l.render.toList ++ ' ' :: (o.toList ++ ' ' :: r.render.toList) =
      l'.render.toList ++ ' ' :: (o'.toList ++ ' ' :: r'.render.toList)) :
    o = o' ∧ l.render = l'.render ∧ r.render = r'.render := by
  obtain ⟨hleft, hrest⟩ := hl.sealed.append_inj hl'.sealed (.inl rfl) (.inl rfl) heq
  obtain ⟨hliteral, hright⟩ := (operator_sealed ho).append_inj (operator_sealed ho') (.inl rfl) (.inl rfl) hrest
  exact ⟨String.toList_inj.1 hliteral, String.toList_inj.1 hleft, String.toList_inj.1 hright⟩

/-- arguments that are written in the same way are written so one by one -/
theorem arguments_inj {as as' : List Node} (ha : ∀ a ∈ as, a.IsExpression) (ha' : ∀ a ∈ as', a.IsExpression)
    (heq : Text.commas (argumentTexts as) = Text.commas (argumentTexts as')) :
    as.map Node.render = as'.map Node.render := by
  have htexts : ∀ {as : List Node}, (∀ a ∈ as, a.IsExpression) →
      ∀ x ∈ argumentTexts as, Text.Sealed x ∧ x ≠ [] := by
    intro as ha x hx
    obtain ⟨a, hmem, rfl⟩ := List.mem_map.1 hx
    exact ⟨(ha a hmem).sealed, (ha a hmem).ne_nil⟩
  have hlist := Text.commas_inj (htexts ha) (htexts ha') heq
  have hinjective : Function.Injective String.toList := fun s t h => String.toList_inj.1 h
  apply hinjective.list_map
  rw [List.map_map, List.map_map]
  exact hlist

/-- lists of trees are the same one by one -/
theorem map_bare_eq {as as' : List Node} (ha' : ∀ a ∈ as', a.IsExpression)
    (hbare : ∀ a ∈ as, ∀ {n' : Node}, n'.IsExpression → a.render = n'.render → a.bare = n'.bare)
    (heq : as.map Node.render = as'.map Node.render) : as.map Node.bare = as'.map Node.bare := by
  induction as generalizing as' with
  | nil =>
    rw [List.map_nil] at heq
    rw [List.map_eq_nil_iff.1 heq.symm]
  | cons a as ih =>
    cases as' with
    | nil => cases heq
    | cons a' as' =>
      obtain ⟨hhead, htail⟩ := List.cons.inj heq
      obtain ⟨ha, hbare'⟩ := List.forall_mem_cons.1 hbare
      obtain ⟨hexpression, hrest⟩ := List.forall_mem_cons.1 ha'
      rw [List.map_cons, List.map_cons, ha hexpression hhead, ih hrest hbare' htail]

/-- **Expressions with the same text are the same**, but for what is not written. -/
theorem bare_eq_of_render_eq {n n' : Node} (h : n.IsExpression) (h' : n'.IsExpression) (heq : n.render = n'.render) :
    n.bare = n'.bare := by
  induction h using Node.IsExpression.form_induction generalizing n' with
  | atom h hn => exact bare_eq_of_atom h h' hn ((h.isEnclosed_eq h' heq).symm.trans hn) heq
  | unary ho hr ih =>
    have hencloses := Node.encloses_unary ho hr.balanced
    cases h' using Node.IsExpression.form_induction with
    | atom h' hn' => cases ((Node.IsExpression.unary ho hr).isEnclosed_eq h' heq).trans hn'
    | unary ho' hr' =>
      obtain ⟨-, hinner⟩ := hencloses.unique (Node.encloses_unary ho' hr'.balanced) heq
      obtain ⟨hliteral, hright⟩ := operator_append_inj ho ho' hr hr' hinner
      simp only [Node.bare, Token.bare, hliteral, ih hr' hright]
    | binary ho' hl' hr' =>
      obtain ⟨-, hinner⟩ :=
        hencloses.unique (Node.encloses_binary ho' hl'.balanced hr'.balanced) heq
      exact absurd hinner (operator_append_ne ho hl' _ _)
    | call token' hf' ha' =>
      obtain ⟨hfront, -⟩ := hencloses.unique (Node.encloses_call token' _ fun a hmem => (ha' a hmem).balanced) heq
      exact absurd hfront.symm hf'.ne_nil
  | binary ho hl hr ihl ihr =>
    have hencloses := Node.encloses_binary ho hl.balanced hr.balanced
    cases h' using Node.IsExpression.form_induction with
    | atom h' hn' => cases ((Node.IsExpression.binary ho hl hr).isEnclosed_eq h' heq).trans hn'
    | unary ho' hr' =>
      obtain ⟨-, hinner⟩ := hencloses.unique (Node.encloses_unary ho' hr'.balanced) heq
      exact absurd hinner.symm (operator_append_ne ho' hl _ _)
    | binary ho' hl' hr' =>
      obtain ⟨-, hinner⟩ := hencloses.unique (Node.encloses_binary ho' hl'.balanced hr'.balanced) heq
      obtain ⟨hliteral, hleft, hright⟩ := binary_inj ho ho' hl hl' hinner
      simp only [Node.bare, Token.bare, hliteral, ihl hl' hleft, ihr hr' hright]
    | call token' hf' ha' =>
      obtain ⟨hfront, -⟩ := hencloses.unique (Node.encloses_call token' _ fun a hmem => (ha' a hmem).balanced) heq
      exact absurd hfront.symm hf'.ne_nil
  | @call token function _ hf ha ihf iha =>
    have hencloses := Node.encloses_call token function fun a hmem => (ha a hmem).balanced
    cases h' using Node.IsExpression.form_induction with
    | atom h' hn' => cases ((Node.IsExpression.call token hf ha).isEnclosed_eq h' heq).trans hn'
    | unary ho' hr' =>
      obtain ⟨hfront, -⟩ := hencloses.unique (Node.encloses_unary ho' hr'.balanced) heq
      exact absurd hfront hf.ne_nil
    | binary ho' hl' hr' =>
      obtain ⟨hfront, -⟩ := hencloses.unique (Node.encloses_binary ho' hl'.balanced hr'.balanced) heq
      exact absurd hfront hf.ne_nil
    | call token' hf' ha' =>
      obtain ⟨hfront, hinner⟩ :=
        hencloses.unique (Node.encloses_call token' _ fun a hmem => (ha' a hmem).balanced) heq
      have hfunction := String.toList_inj.1 hfront
      have harguments := map_bare_eq ha' iha (arguments_inj ha ha' hinner)
      simp only [Node.bare, Node.bareAll_eq_map, ihf hf' hfunction, harguments]

/-- **Expressions are printed without ambiguity.** Two expressions have the same text if and only if they are the same
tree, but for what is not written of it. -/
theorem render_eq_iff {n n' : Node} (h : n.IsExpression) (h' : n'.IsExpression) :
    n.render = n'.render ↔ n.bare = n'.bare := by
  constructor
  · exact bare_eq_of_render_eq h h'
  · intro hbare
    rw [← n.bare_render, ← n'.bare_render, hbare]

/-- a call of a negated name with the placeholder and the shortest number, twice with other tokens and another value -/
theorem render_eq_iff_of_call :
    let x := Node.identifier ⟨.identifier, "x", ⟨1, 2⟩⟩ "x"
    let n := Node.call ⟨.leftParen, "(", ⟨1, 4⟩⟩ (.unary ⟨.subtract, "-", ⟨1, 1⟩⟩ x)
      [.placeholder, .float ⟨.float, ".", ⟨1, 10⟩⟩ 0]
    let n' := Node.call ⟨.leftBrace, "", .start⟩ (.unary ⟨.multiply, "-", .start⟩ x)
      [.placeholder, .float ⟨.illegal, ".", .start⟩ 1]
    n.IsExpression ∧ n'.IsExpression ∧ n.render = "(-x)(..., .)" ∧ n'.render = n.render ∧ n'.bare = n.bare := by
  intro x n n'
  have hname : IsName "x" := ⟨by decide, List.all_eq_true.1 (by decide), fun c hc => by cases hc; rfl, by decide⟩
  have htokens : tokens "." = [⟨.float, ".", ⟨1, 0⟩⟩, ⟨.endOfInput, "", ⟨1, 1⟩⟩] := by cbv
  have hpoint : IsLexeme ⟨.float, ".".toList⟩ := by
    refine ⟨".", ?_⟩
    rw [htokens]
    decide
  have h : ∀ {t u v : Token} {value : Float}, u.literal ∈ operators → v.literal = "." →
      (Node.call t (.unary u x) [.placeholder, .float v value]).IsExpression := by
    intro t u v value ho hv
    refine .call t (.unary ho (.identifier _ hname)) ?_
    exact List.forall_mem_cons.2 ⟨.placeholder, List.forall_mem_singleton.2 (.float value (hv ▸ hpoint))⟩
  have hrender : n'.render = n.render := by decide
  have hn : n.IsExpression := h (by decide) rfl
  have hn' : n'.IsExpression := h (by decide) rfl
  exact ⟨hn, hn', by decide, hrender, (render_eq_iff hn' hn).1 hrender⟩

end LetFront
