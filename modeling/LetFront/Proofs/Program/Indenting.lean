/-
Programs shown at a level of indentation. Showing a tree at a level indents its text by four spaces for the level, however
deep programs stand in programs, although each level writes the spaces of its own errors and brackets. Only what is shown
on one line is taken for a line, so this holds of trees without line feeds in what is written of their parts.

Main statements: `spread_block`, a list between brackets is indented item by item; `Node.FeedFree.display_eq`, a tree at a
level; `display_indented`, a program at a level, and the program itself by what it is made of.
-/
import LetFront.Program.Render
import LetFront.Proofs.Text.Indentation

namespace LetFront

/-- no line feed in what is written of the errors of a program and of its statements that are no programs -/
inductive Node.FeedFree : Node → Prop
  | single {n : Node} (hn : n.isProgram = false) (hfeed : '\n' ∉ n.render.toList) : FeedFree n
  | program {statements : List Node} {errors : List ParseError} (hs : ∀ n ∈ statements, FeedFree n)
      (he : ∀ e ∈ errors, '\n' ∉ e.render.toList) : FeedFree (.program statements errors)

/-- items on lines of their own, with commas between them; nothing if there are none -/
def itemised : List String → String
  | [] => ""
  | items => "\n" ++ String.intercalate ",\n" items ++ "\n"

/-! ## Lists between brackets -/

theorem block_ne_nil (pad : String) {items : List String} (h : items ≠ []) :
    block pad items = String.intercalate "," (items.map ("\n" ++ ·)) ++ "\n" ++ pad := by
  obtain ⟨item, items, rfl⟩ := List.exists_cons_of_ne_nil h
  rfl

/-- a line feed in front of every item is one in front of all, and one behind every comma -/
theorem intercalate_feeds {items : List String} (h : items ≠ []) :
    String.intercalate "," (items.map ("\n" ++ ·)) = "\n" ++ String.intercalate ",\n" items := by
  induction items with
  | nil => exact absurd rfl h
  | cons item items ih =>
    cases items with
    | nil => rfl
    | cons item' items =>
      have hcomma : ",\n" = "," ++ "\n" := by decide
      rw [List.map_cons, String.intercalate_cons_of_ne_nil (by simp), ih (List.cons_ne_nil _ _),
        String.intercalate_cons_cons, hcomma]
      simp only [String.append_assoc]

theorem block_empty (items : List String) : block "" items = itemised items := by
  cases items with
  | nil => rfl
  | cons item items =>
    rw [block_ne_nil "" (List.cons_ne_nil _ _), intercalate_feeds (List.cons_ne_nil _ _), String.append_empty]
    rfl

/-- **A list between brackets is indented item by item**, and so is the bracket behind it. -/
theorem spread_block (n : ℕ) (items : List String) :
    Text.spread n (block "" items) = block (Text.spaces n) (items.map (Text.indented n)) := by
  by_cases h : items = []
  · subst h
    rfl
  · have hitems : (items.map ("\n" ++ ·)).map (Text.spread n) = (items.map (Text.indented n)).map ("\n" ++ ·) := by
      rw [List.map_map, List.map_map]
      refine List.map_congr_left fun item _ => ?_
      rw [Function.comp_apply, Text.spread_append, Text.spread_feed, Function.comp_apply, Text.indented_eq,
        String.append_assoc]
    rw [block_ne_nil "" h, block_ne_nil _ (by simpa using h), String.append_empty, Text.spread_append, Text.spread_feed,
      Text.spread_intercalate (by decide), hitems, String.append_assoc]

/-! ## Trees -/

namespace Node

variable {statements : List Node} {errors : List ParseError}

theorem indentation_natCast (k : ℕ) : indentation k = Text.spaces (4 * k) := by
  rw [indentation, Int.toNat_natCast, Text.spaces]

theorem display_single {n : Node} (hn : n.isProgram = false) (k : ℕ) :
    n.display k = Text.spaces (4 * k) ++ (n.form ++ "(" ++ n.render ++ ")") := by
  have hshape : n.display k = indentation k ++ n.form ++ "(" ++ n.render ++ ")" := by
    cases n with
    | program => cases hn
    | _ => rfl
  rw [hshape, indentation_natCast]
  simp only [String.append_assoc]

theorem display_program (statements : List Node) (errors : List ParseError) (k : ℕ) :
    (program statements errors).display k =
      Text.spaces (4 * k) ++ ("Program(statements=[" ++
        block (Text.spaces (4 * k)) (statements.map (display (k + 1 : ℕ))) ++ "], errors=[" ++
        block (Text.spaces (4 * k)) (errors.map (Text.spaces (4 * k) ++ "    " ++ ·.render)) ++ "])") := by
  rw [display, displayAll_eq_map, indentation_natCast]
  simp only [String.append_assoc, Nat.cast_add, Nat.cast_one]

theorem feed_not_mem_form (n : Node) : '\n' ∉ n.form.toList := by cases n <;> simp [form]

/-- the same, shown without a level: every item is indented by four spaces -/
theorem display_program_zero (statements : List Node) (errors : List ParseError) :
    (program statements errors).display 0 =
      "Program(statements=[" ++ block "" (statements.map (display (1 : ℕ))) ++ "], errors=[" ++
        block "" (errors.map ("    " ++ ·.render)) ++ "])" :=
  display_program statements errors 0

/-- **A tree at a level** is the tree with four spaces for the level in front of each of its lines. -/
theorem FeedFree.display_eq {n : Node} (h : n.FeedFree) (k : ℕ) : n.display k = Text.indented (4 * k) (n.display 0) := by
  induction h generalizing k with
  | @single n hn hfeed =>
    have hline : '\n' ∉ (n.form ++ "(" ++ n.render ++ ")").toList := by
      simp [n.feed_not_mem_form, hfeed]
    have hzero : n.display 0 = n.form ++ "(" ++ n.render ++ ")" := display_single hn 0
    rw [hzero, display_single hn, Text.indented_eq, Text.spread_of_feed_not_mem hline]
  | @program statements errors hs he ih =>
    -- the level of a statement is one more, which is the same as indenting it by four spaces more
    have hstatements : statements.map (display (k + 1 : ℕ)) =
        (statements.map (display (1 : ℕ))).map (Text.indented (4 * k)) := by
      rw [List.map_map]
      refine List.map_congr_left fun n hn => ?_
      rw [Function.comp_apply, ih n hn (k + 1), ih n hn 1, Text.indented_indented, Nat.mul_add]
    have herrors : errors.map (Text.spaces (4 * k) ++ "    " ++ ·.render) =
        (errors.map ("    " ++ ·.render)).map (Text.indented (4 * k)) := by
      rw [List.map_map]
      refine List.map_congr_left fun e hmem => ?_
      have hline : '\n' ∉ ("    " ++ e.render).toList := by simp [he e hmem]
      rw [Function.comp_apply, Text.indented_eq, Text.spread_of_feed_not_mem hline, String.append_assoc]
    rw [display_program, display_program_zero, Text.indented_eq, hstatements, herrors]
    simp only [Text.spread_append, spread_block]
    -- no line feed stands in the brackets
    rfl

end Node

/-- **Programs are indented as a whole.** Programs may stand in programs to any depth, beside any other nodes. Shown at a
level, such a program is the program with four spaces for the level in front of each of its lines; and the program is its
statements and then its errors, each list indented by four spaces, on lines of its own with a comma behind every item but
the last. -/
theorem display_indented {statements : List Node} {errors : List ParseError}
    (h : (Node.program statements errors).FeedFree) :
    (∀ k : ℕ, (Node.program statements errors).display k =
      Text.indented (4 * k) ((Node.program statements errors).display 0)) ∧
    (Node.program statements errors).display 0 =
      "Program(statements=[" ++ itemised (statements.map fun n => Text.indented 4 (n.display 0)) ++ "], errors=[" ++
        itemised (errors.map fun e => Text.indented 4 e.render) ++ "])" := by
  refine ⟨h.display_eq, ?_⟩
  rw [Node.display_program_zero, block_empty, block_empty]
  cases h with
  | single hn => cases hn
  | program hs he =>
    have hstatements : statements.map (Node.display (1 : ℕ)) = statements.map fun n => Text.indented 4 (n.display 0) :=
      List.map_congr_left fun n hn => (hs n hn).display_eq 1
    have herrors : errors.map ("    " ++ ·.render) = errors.map fun e => Text.indented 4 e.render := by
      refine List.map_congr_left fun e hmem => ?_
      rw [Text.indented_eq, Text.spread_of_feed_not_mem (he e hmem)]
      rfl
    rw [hstatements, herrors]

/-- a program with an error, in a program with two statements -/
theorem display_indented_of_nested :
    let inner : Node := .program [.placeholder] [⟨"m", some ⟨1, 2⟩⟩, ⟨"n", none⟩]
    let outer : List Node := [inner, .identifier ⟨.identifier, "x", .start⟩ "x"]
    (Node.program outer []).FeedFree ∧
      (Node.program outer []).display 2 = Text.indented 8 ((Node.program outer []).display 0) ∧
      (Node.program outer []).display 0 = "Program(statements=[\n    Program(statements=[\n        Placeholder(...)\n" ++
        "    ], errors=[\n        At line=1, col=2: m,\n        n\n    ]),\n    Identifier(x)\n], errors=[])" := by
  intro inner outer
  have hinner : inner.FeedFree := by
    refine .program (List.forall_mem_singleton.2 (.single rfl (by decide))) ?_
    exact List.forall_mem_cons.2 ⟨by decide, List.forall_mem_singleton.2 (by decide)⟩
  have houter : (Node.program outer []).FeedFree := by
    refine .program (List.forall_mem_cons.2 ⟨hinner, List.forall_mem_singleton.2 (.single rfl (by decide))⟩) ?_
    exact List.forall_mem_nil _
  obtain ⟨hlevel, htext⟩ := display_indented houter
  exact ⟨houter, hlevel 2, htext.trans (by decide +kernel)⟩

end LetFront
