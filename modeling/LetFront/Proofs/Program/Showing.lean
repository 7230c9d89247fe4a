/-
What is shown of a program that was read determines what was read: the names of its statements, and its errors with their
locations. An item of a list between brackets stands on a line of its own and begins with a space, so it ends where its
line does and the list ends where a line begins with the closing bracket. A name has neither a line feed nor anything
else than word characters in it, and an error without a location only says that the input ran out.

`Behind rest items comma after`: behind an item stands `comma`, and below its line `after`, if `items` are the next ones and
`rest` stands behind the closing bracket. `showing names errors`: a program with let statements of these names and with
these errors, as it is shown.

Main statements: `block_append_inj`, the items of a list are found again; `ParseError.IsMet.render_inj`, an error is found
again; `display_ofString`, a program that was read is shown by its names and errors; `display_eq_iff`, programs that are
shown in the same way.
-/
import LetFront.Proofs.Program.Indenting
import LetFront.Proofs.Program.Reprint
import LetFront.Proofs.Text.Fields

namespace LetFront

/-! ## Lists between brackets -/

/-- an item stands on one line and begins with a space -/
structure IsItem (item : String) : Prop where
  feed : '\n' ∉ item.toList
  head : item.toList.head? = some ' '

theorem toList_block_singleton (item : String) : (block "" [item]).toList = '\n' :: (item.toList ++ ['\n']) := by
  simp [block_ne_nil "" (List.cons_ne_nil item [])]

theorem toList_block_cons_cons (item next : String) (items : List String) :
    (block "" (item :: next :: items)).toList =
      '\n' :: ((item.toList ++ [',']) ++ (block "" (next :: items)).toList) := by
  rw [block_ne_nil "" (List.cons_ne_nil _ _), block_ne_nil "" (List.cons_ne_nil next items), List.map_cons, List.map_cons,
    String.intercalate_cons_cons]
  simp

/-- a list that has items begins on the next line, with the first of them -/
theorem exists_toList_block_cons (item : String) (items : List String) :
    ∃ after, (block "" (item :: items)).toList = '\n' :: (item.toList ++ after) := by
  cases items with
  | nil => exact ⟨_, toList_block_singleton item⟩
  | cons next items =>
    rw [toList_block_cons_cons, List.append_assoc]
    exact ⟨_, rfl⟩

inductive Behind (rest : List Char) : List String → List Char → List Char → Prop
  | close : Behind rest [] [] (']' :: rest)
  | next {item : String} {items : List String} {after : List Char}
      (h : (block "" (item :: items)).toList ++ ']' :: rest = '\n' :: after) (hhead : after.head? = some ' ') :
      Behind rest (item :: items) [','] after

theorem exists_behind (item : String) {items : List String} (h : ∀ item ∈ items, IsItem item) (rest : List Char) :
    ∃ comma after, (block "" (item :: items)).toList ++ ']' :: rest = '\n' :: ((item.toList ++ comma) ++ '\n' :: after) ∧
      '\n' ∉ comma ∧ Behind rest items comma after := by
  cases items with
  | nil => exact ⟨[], _, by simp [toList_block_singleton], List.not_mem_nil, .close⟩
  | cons next items =>
    obtain ⟨after, hafter⟩ := exists_toList_block_cons next items
    obtain ⟨cs, hcs⟩ := List.head?_eq_some_iff.1 (h next List.mem_cons_self).head
    refine ⟨[','], next.toList ++ after ++ ']' :: rest, ?_, by decide, .next ?_ ?_⟩
    · simp [toList_block_cons_cons, hafter]
    · rw [hafter, List.cons_append]
    · simp [hcs]

/-- **The items of a list are found again** in front of its closing bracket. -/
theorem block_append_inj {items items' : List String} {rest rest' : List Char} (h : ∀ item ∈ items, IsItem item)
    (h' : ∀ item ∈ items', IsItem item)
    (heq : (block "" items).toList ++ ']' :: rest = (block "" items').toList ++ ']' :: rest') :
    items = items' ∧ rest = rest' := by
  induction items generalizing items' with
  | nil =>
    cases items' with
    | nil => exact ⟨rfl, (List.cons.inj heq).2⟩
    | cons item' items' =>
      obtain ⟨after, hafter⟩ := exists_toList_block_cons item' items'
      rw [hafter] at heq
      exact absurd (congrArg List.head? heq) (by simp [block])
  | cons item items ih =>
    obtain ⟨hitem, hitems⟩ := List.forall_mem_cons.1 h
    cases items' with
    | nil =>
      obtain ⟨after, hafter⟩ := exists_toList_block_cons item items
      rw [hafter] at heq
      exact absurd (congrArg List.head? heq) (by simp [block])
    | cons item' items' =>
      obtain ⟨hitem', hitems'⟩ := List.forall_mem_cons.1 h'
      obtain ⟨comma, after, htext, hcomma, hbehind⟩ := exists_behind item hitems rest
      obtain ⟨comma', after', htext', hcomma', hbehind'⟩ := exists_behind item' hitems' rest'
      rw [htext, htext'] at heq
      -- the two first lines are the same, and so is what stands below them
      have hline : '\n' ∉ item.toList ++ comma := by simp [hitem.feed, hcomma]
      have hline' : '\n' ∉ item'.toList ++ comma' := by simp [hitem'.feed, hcomma']
      obtain ⟨hsame, rfl⟩ := Text.append_cons_inj hline hline' (List.cons.inj heq).2
      cases hbehind with
      | close =>
        cases hbehind' with
        | close => exact ⟨by rw [String.toList_inj.1 (List.append_cancel_right hsame)], rfl⟩
        | next _ hhead => cases hhead
      | next hbelow hhead =>
        cases hbehind' with
        | close => cases hhead
        | next hbelow' _ =>
          obtain ⟨hnext, hrest⟩ := ih hitems hitems' (hbelow.trans hbelow'.symm)
          exact ⟨by rw [String.toList_inj.1 (List.append_cancel_right hsame), hnext], hrest⟩

/-! ## Errors -/

/-- an error as a parser meets it: on one line, and without a location only where the input ran out -/
structure ParseError.IsMet (e : ParseError) : Prop where
  feed : '\n' ∉ e.message.toList
  message : e.location = none → e.message = "unexpected end of input"

theorem isMet_of_mem_errors {source : String} {e : ParseError} (h : e ∈ (Program.ofString source).errors) : e.IsMet := by
  have hname : ∀ k : Kind, '\n' ∉ k.name.toList := fun k => by cases k <;> decide
  rcases exists_blamed_of_mem_errors h with rfl | ⟨t, -, hblame⟩
  · exact ⟨by decide, fun _ => rfl⟩
  · have hlocated : e.location ≠ none := by simp [hblame.location]
    refine ⟨?_, fun hnone => absurd hnone hlocated⟩
    cases hblame <;> simp [hname]

namespace ParseError

/-- an error without a location is shown by its message alone -/
theorem render_none (message : String) : (⟨message, none⟩ : ParseError).render = message := rfl

theorem toList_render_some (message : String) (l : Location) :
    (⟨message, some l⟩ : ParseError).render.toList = "At line=".toList ++ ((toString l.line).toList ++ ',' ::
      (" col=".toList ++ ((toString l.column).toList ++ ':' :: ' ' :: message.toList))) := by
  change ("At line=" ++ toString l.line ++ ", col=" ++ toString l.column ++ ": " ++ message).toList = _
  simp

theorem IsMet.isItem {e : ParseError} (h : e.IsMet) : IsItem ("    " ++ e.render) where
  feed := by
    obtain ⟨message, location⟩ := e
    have hmessage : '\n' ∉ message.toList := h.feed
    cases location with
    | none => simpa [render_none] using hmessage
    | some l =>
      have hnumber : ∀ i : ℤ, '\n' ∉ (toString i).toList := fun i hmem =>
        absurd (Text.isNumeral_toString i _ hmem) (by decide)
      have hline := hnumber l.line
      have hcolumn := hnumber l.column
      rw [String.toList_append, toList_render_some]
      simp only [List.mem_append, List.mem_cons, not_or, hline, hcolumn, hmessage]
      decide
  head := by simp

/-- the two ways to write an error begin with different letters -/
theorem IsMet.render_ne {message message' : String} {l : Location} (h : (⟨message, none⟩ : ParseError).IsMet) :
    (⟨message, none⟩ : ParseError).render ≠ (⟨message', some l⟩ : ParseError).render := by
  intro heq
  have htext := congrArg String.toList heq
  rw [render_none, show message = _ from h.message rfl, toList_render_some] at htext
  exact absurd (congrArg List.head? htext) (by simp)

/-- **An error is found again** from its line. -/
theorem IsMet.render_inj {e e' : ParseError} (h : e.IsMet) (h' : e'.IsMet) (heq : e.render = e'.render) : e = e' := by
  obtain ⟨message, location⟩ := e
  obtain ⟨message', location'⟩ := e'
  cases location with
  | none =>
    cases location' with
    | none => exact congrArg (ParseError.mk · none) heq
    | some l' => exact absurd heq h.render_ne
  | some l =>
    cases location' with
    | none => exact absurd heq.symm h'.render_ne
    | some l' =>
      have htext := congrArg String.toList heq
      rw [toList_render_some, toList_render_some] at htext
      obtain ⟨hline, htext⟩ := Text.toString_append_inj (by decide) (List.append_cancel_left htext)
      obtain ⟨hcolumn, htext⟩ := Text.toString_append_inj (by decide) (List.append_cancel_left htext)
      have hmessage : message = message' := String.toList_inj.1 (List.cons.inj htext).2
      obtain ⟨line, column⟩ := l
      obtain ⟨line', column'⟩ := l'
      obtain rfl : line = line' := hline
      obtain rfl : column = column' := hcolumn
      obtain rfl := hmessage
      rfl

end ParseError

/-! ## Programs -/

/-- a let statement of the name, as it is shown in a program -/
def shownBinding (name : String) : String := "    LetStatement(let " ++ name ++ " = ...;)"

/-- a program with let statements of the names and with the errors, as it is shown -/
def showing (names : List String) (errors : List ParseError) : String :=
  "Program(statements=[" ++ block "" (names.map shownBinding) ++ "], errors=[" ++
    block "" (errors.map ("    " ++ ·.render)) ++ "])"

theorem display_binding {b : Binding} (h : b.keyword.literal = "let") :
    b.node.display (1 : ℕ) = shownBinding b.name.literal := by
  have hrender : b.node.render = "let" ++ " " ++ b.name.literal ++ " = " ++ "..." ++ ";" := by
    simp only [Binding.node, Node.render, h]
  have hform : b.node.form = "LetStatement" := rfl
  have hfront : Text.spaces 4 ++ "LetStatement" ++ "(" ++ "let" ++ " " = "    LetStatement(let " := by decide
  have hback : " = " ++ "..." ++ ";" ++ ")" = " = ...;)" := by decide
  calc b.node.display (1 : ℕ)
      = Text.spaces 4 ++ (b.node.form ++ "(" ++ b.node.render ++ ")") := Node.display_single (n := b.node) rfl 1
    _ = (Text.spaces 4 ++ "LetStatement" ++ "(" ++ "let" ++ " ") ++ b.name.literal ++ (" = " ++ "..." ++ ";" ++ ")") := by
      rw [hform, hrender]
      simp only [String.append_assoc]
    _ = shownBinding b.name.literal := congrArg₂ (· ++ b.name.literal ++ ·) hfront hback

/-- **A program that was read is shown by its names and errors.** -/
theorem display_ofString (source : String) :
    (Program.ofString source).display =
      showing ((Program.ofString source).statements.map fun b => b.name.literal) (Program.ofString source).errors := by
  have hstatements : ((Program.ofString source).statements.map Binding.node).map (Node.display (1 : ℕ)) =
      ((Program.ofString source).statements.map fun b => b.name.literal).map shownBinding := by
    rw [List.map_map, List.map_map]
    exact List.map_congr_left fun b hb => display_binding (literal_of_mem_statements hb).1
  rw [Program.display, Program.node, Node.display_program_zero, hstatements]
  rfl

theorem toList_shownBinding (name : String) :
    (shownBinding name).toList = "    LetStatement(let ".toList ++ (name.toList ++ " = ...;)".toList) := by
  unfold shownBinding
  rw [String.toList_append, String.toList_append, List.append_assoc]

theorem IsName.isItem_shownBinding {name : String} (h : IsName name) : IsItem (shownBinding name) where
  feed := by
    have hname : '\n' ∉ name.toList := fun hmem => absurd (h.wordChars _ hmem) (by decide)
    have hfront : '\n' ∉ "    LetStatement(let ".toList := by decide
    have hback : '\n' ∉ " = ...;)".toList := by decide
    rw [toList_shownBinding, List.mem_append, List.mem_append, not_or, not_or]
    exact ⟨hfront, hname, hback⟩
  head := by
    rw [toList_shownBinding, List.head?_append]
    rfl

theorem shownBinding_injective : Function.Injective shownBinding := by
  intro name name' h
  have htext := congrArg String.toList h
  rw [toList_shownBinding, toList_shownBinding] at htext
  exact String.toList_inj.1 (List.append_cancel_right (List.append_cancel_left htext))

theorem toList_showing (names : List String) (errors : List ParseError) :
    (showing names errors).toList = "Program(statements=[".toList ++ ((block "" (names.map shownBinding)).toList ++
      ']' :: (", errors=[".toList ++ ((block "" (errors.map ("    " ++ ·.render))).toList ++ [']', ')']))) := by
  have hbetween : "], errors=[".toList = ']' :: ", errors=[".toList := by decide
  have hend : "])".toList = [']', ')'] := by decide
  unfold showing
  rw [String.toList_append, String.toList_append, String.toList_append, String.toList_append, hend, List.append_assoc,
    List.append_assoc, List.append_assoc, hbetween, List.cons_append]

/-- a list is found again from its images, if these tell its members apart -/
theorem eq_of_map_eq {α β : Type} {f : α → β} {as bs : List α} (hf : ∀ a ∈ as, ∀ b ∈ bs, f a = f b → a = b)
    (h : as.map f = bs.map f) : as = bs := by
  have hlength : as.length = bs.length := by simpa using congrArg List.length h
  refine List.ext_getElem hlength fun i hi hi' => hf _ (List.getElem_mem hi) _ (List.getElem_mem hi') ?_
  have himage := congrArg (·[i]?) h
  simpa [hi, hi'] using himage

/-- **Names and errors are found again**, if they are such as a parser meets. -/
theorem showing_inj {names names' : List String} {errors errors' : List ParseError} (hnames : ∀ n ∈ names, IsName n)
    (hnames' : ∀ n ∈ names', IsName n) (herrors : ∀ e ∈ errors, e.IsMet) (herrors' : ∀ e ∈ errors', e.IsMet)
    (h : showing names errors = showing names' errors') : names = names' ∧ errors = errors' := by
  have htext := congrArg String.toList h
  rw [toList_showing, toList_showing] at htext
  obtain ⟨hstatements, htext⟩ := block_append_inj
    (List.forall_mem_map.2 fun n hn => (hnames n hn).isItem_shownBinding)
    (List.forall_mem_map.2 fun n hn => (hnames' n hn).isItem_shownBinding) (List.append_cancel_left htext)
  obtain ⟨hlines, -⟩ := block_append_inj (List.forall_mem_map.2 fun e he => (herrors e he).isItem)
    (List.forall_mem_map.2 fun e he => (herrors' e he).isItem) (List.append_cancel_left htext)
  have hinjective : ∀ e ∈ errors, ∀ e' ∈ errors', "    " ++ e.render = "    " ++ e'.render → e = e' := by
    intro e he e' he' hline
    refine (herrors e he).render_inj (herrors' e' he') (String.toList_inj.1 ?_)
    have hchars := congrArg String.toList hline
    rw [String.toList_append, String.toList_append] at hchars
    exact List.append_cancel_left hchars
  exact ⟨shownBinding_injective.list_map hstatements, eq_of_map_eq hinjective hlines⟩

/-- **What is shown of a program is what was read.** The programs of two sources are shown in the same way just if they
have the same names in their statements and the same errors, each with its message and with its location if it has one. -/
theorem display_eq_iff (source source' : String) :
    (Program.ofString source).display = (Program.ofString source').display ↔
      (Program.ofString source).statements.map (fun b => b.name.literal) =
        (Program.ofString source').statements.map (fun b => b.name.literal) ∧
      (Program.ofString source).errors = (Program.ofString source').errors := by
  have hnames : ∀ source, ∀ n ∈ (Program.ofString source).statements.map (fun b => b.name.literal), IsName n := fun _ =>
    List.forall_mem_map.2 fun b hb => (literal_of_mem_statements hb).2
  rw [display_ofString, display_ofString]
  constructor
  · exact showing_inj (hnames source) (hnames source') (fun e => isMet_of_mem_errors) fun e => isMet_of_mem_errors
  · rintro ⟨hnames, herrors⟩
    rw [hnames, herrors]

end LetFront
