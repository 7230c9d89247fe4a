/-
Lines of a text that end at any line break, against lines that end at a line feed only. A text is split at its line
feeds by `splitOn`; each of these lines is then one or more of those that `lines` gives, and it is one and the same
only if no other break stands in it.

`OneLine l`: nothing breaks `l` before its line feed, but a carriage return may go with that.

Main statements: `lines_append_feed`, a line feed ends a line whatever stands around it; `length_endedLines`, how many
lines a text is; `exists_lines_append`, the lines are those of the text in front, then those of the rest;
`getElem?_lines_eq_iff`, when the two ways of counting agree on a line; `FeedsOnly.getElem?_lines`, that they always do
in a text without other breaks, up to an empty last line.
-/
import Mathlib.Tactic
import LetFront.Text.Lines

namespace LetFront.Text

/-- no line break stands in a text -/
def Unbroken (l : List Char) : Prop := ∀ c ∈ l, isLineBreak c = false

instance (l : List Char) : Decidable (Unbroken l) := inferInstanceAs (Decidable (∀ c ∈ l, isLineBreak c = false))

/-- with a line feed behind it the text is one line -/
def OneLine (l : List Char) : Prop := ∃ body, Unbroken body ∧ (l = body ∨ l = body ++ ['\r'])

/-- the lines of a text with a line feed behind it -/
def endedLines (l : List Char) : List (List Char) := lines (l ++ ['\n'])

theorem consLine_append (c : Char) {ls : List (List Char)} (h : ls ≠ []) (ls' : List (List Char)) :
    consLine c (ls ++ ls') = consLine c ls ++ ls' := by
  obtain ⟨l, ls, rfl⟩ := List.exists_cons_of_ne_nil h
  rfl

theorem length_consLine (c : Char) {ls : List (List Char)} (h : ls ≠ []) : (consLine c ls).length = ls.length := by
  obtain ⟨l, ls, rfl⟩ := List.exists_cons_of_ne_nil h
  rfl

/-! ## One character -/

theorem lines_cons {c : Char} (h : isLineBreak c = false) (cs : List Char) :
    lines (c :: cs) = consLine c (lines cs) := by
  have hc : c ≠ '\r' := by rintro rfl; exact absurd h (by decide)
  rw [lines, if_neg (by simp [h])]
  exact fun _ hcr => absurd hcr hc

theorem lines_break {c : Char} (h : isLineBreak c = true) {cs : List Char} (hcs : c = '\r' → '\n' ∉ cs.head?) :
    lines (c :: cs) = [] :: lines cs := by
  rw [lines, if_pos h]
  rintro bs hc rfl
  exact hcs hc rfl

theorem lines_feed (cs : List Char) : lines ('\n' :: cs) = [] :: lines cs :=
  lines_break (by decide) fun h => absurd h (by decide)

theorem lines_return_feed (cs : List Char) : lines ('\r' :: '\n' :: cs) = [] :: lines cs := by rw [lines]

theorem lines_ne_nil {cs : List Char} (h : cs ≠ []) : lines cs ≠ [] := by
  fun_cases lines cs with
  | case1 => exact absurd rfl h
  | case2 => exact List.cons_ne_nil _ _
  | case3 => exact List.cons_ne_nil _ _
  | case4 c cs => cases lines cs <;> exact List.cons_ne_nil _ _

theorem endedLines_ne_nil (l : List Char) : endedLines l ≠ [] := lines_ne_nil (by simp)

theorem endedLines_cons {c : Char} (h : isLineBreak c = false) (l : List Char) :
    endedLines (c :: l) = consLine c (endedLines l) := lines_cons h _

theorem endedLines_break {c : Char} (h : isLineBreak c = true) {l : List Char} (hl : '\n' ∉ l)
    (hret : ¬ (c = '\r' ∧ l = [])) : endedLines (c :: l) = [] :: endedLines l := by
  refine lines_break h fun hc hfeed => ?_
  obtain ⟨d, l, rfl⟩ := List.exists_cons_of_ne_nil fun hnil => hret ⟨hc, hnil⟩
  cases hfeed
  exact hl List.mem_cons_self

theorem unbroken_of_mem_lines {cs l : List Char} (h : l ∈ lines cs) : Unbroken l := by
  fun_induction lines cs generalizing l with
  | case1 => cases h
  | case2 cs ih | case3 c cs _ _ ih =>
    rcases List.mem_cons.1 h with rfl | h
    · exact List.forall_mem_nil _
    · exact ih h
  | case4 c cs _ hc ih =>
    have hc : isLineBreak c = false := by simpa using hc
    cases hls : lines cs with
    | nil =>
      rw [hls] at h
      rw [List.mem_singleton.1 h]
      exact List.forall_mem_singleton.2 hc
    | cons l' ls =>
      rw [hls] at h ih
      rcases List.mem_cons.1 h with rfl | h
      · exact List.forall_mem_cons.2 ⟨hc, ih List.mem_cons_self⟩
      · exact ih (List.mem_cons_of_mem _ h)

theorem sublist_of_mem_lines {cs l : List Char} (h : l ∈ lines cs) : l.Sublist cs := by
  fun_induction lines cs generalizing l with
  | case1 => cases h
  | case2 cs ih =>
    rcases List.mem_cons.1 h with rfl | h
    · exact List.nil_sublist _
    · exact ((ih h).cons _).cons _
  | case3 c cs _ _ ih =>
    rcases List.mem_cons.1 h with rfl | h
    · exact List.nil_sublist _
    · exact (ih h).cons _
  | case4 c cs _ _ ih =>
    cases hls : lines cs with
    | nil =>
      rw [hls] at h
      obtain rfl := List.mem_singleton.1 h
      exact (List.nil_sublist cs).cons_cons c
    | cons l' ls =>
      rw [hls] at h ih
      rcases List.mem_cons.1 h with rfl | h
      · exact (ih List.mem_cons_self).cons_cons c
      · exact (ih (List.mem_cons_of_mem _ h)).cons _

/-! ## A line feed ends a line -/

/-- **A line feed ends a line.** The lines of a text with a line feed in it are those through the line feed, then those
behind it. -/
theorem lines_append_feed (as bs : List Char) : lines (as ++ '\n' :: bs) = endedLines as ++ lines bs := by
  unfold endedLines
  fun_induction lines as with
  | case1 => rw [List.nil_append, List.nil_append, lines_feed, lines_feed]; rfl
  | case2 as ih =>
    rw [List.cons_append, List.cons_append, List.cons_append, List.cons_append, lines_return_feed, lines_return_feed,
      ih]
    rfl
  | case3 c as hcr hc ih =>
    rw [List.cons_append, List.cons_append]
    cases as with
    | nil =>
      -- a carriage return at the end goes with the line feed, any other break is a line of its own
      by_cases hret : c = '\r'
      · subst hret
        rw [List.nil_append, List.nil_append, lines_return_feed, lines_return_feed]
        rfl
      · rw [lines_break hc fun h => absurd h hret, lines_break hc fun h => absurd h hret, ih]
        rfl
    | cons d as =>
      have hd : c = '\r' → d ≠ '\n' := fun h hd => hcr as h (by rw [hd])
      rw [lines_break hc (by simpa using hd), lines_break hc (by simpa using hd), ih]
      rfl
  | case4 c as _ hc ih =>
    have hc : isLineBreak c = false := by simpa using hc
    rw [List.cons_append, List.cons_append, lines_cons hc, lines_cons hc, ih]
    exact consLine_append c (lines_ne_nil (by simp)) _

theorem lines_unbroken {l : List Char} (h : Unbroken l) (hl : l ≠ []) : lines l = [l] := by
  induction l with
  | nil => exact absurd rfl hl
  | cons c l ih =>
    obtain ⟨hc, h⟩ := List.forall_mem_cons.1 h
    rw [lines_cons hc]
    by_cases hnil : l = []
    · subst hnil; rfl
    · rw [ih h hnil]; rfl

theorem endedLines_unbroken {l : List Char} (h : Unbroken l) : endedLines l = [l] := by
  induction l with
  | nil => rfl
  | cons c l ih =>
    obtain ⟨hc, h⟩ := List.forall_mem_cons.1 h
    rw [endedLines_cons hc, ih h]
    rfl

/-! ## How many lines a text is -/

theorem oneLine_cons {c : Char} (h : isLineBreak c = false) (l : List Char) : OneLine (c :: l) ↔ OneLine l := by
  constructor
  · rintro ⟨body, hbody, hl⟩
    cases body with
    | nil =>
      rcases hl with hl | hl
      · cases hl
      · cases hl
        exact absurd h (by decide)
    | cons d body =>
      refine ⟨body, (List.forall_mem_cons.1 hbody).2, ?_⟩
      exact hl.imp (fun hl => (List.cons.inj hl).2) fun hl => (List.cons.inj hl).2
  · rintro ⟨body, hbody, hl⟩
    refine ⟨c :: body, List.forall_mem_cons.2 ⟨h, hbody⟩, ?_⟩
    exact hl.imp (congrArg (c :: ·)) (congrArg (c :: ·))

theorem oneLine_break {c : Char} (h : isLineBreak c = true) (l : List Char) :
    OneLine (c :: l) ↔ c = '\r' ∧ l = [] := by
  constructor
  · rintro ⟨body, hbody, hl⟩
    cases body with
    | nil =>
      rcases hl with hl | hl
      · cases hl
      · exact List.cons.inj hl
    | cons d body =>
      have hd : c = d := hl.elim (fun hl => (List.cons.inj hl).1) fun hl => (List.cons.inj hl).1
      have hfalse := hbody d List.mem_cons_self
      rw [← hd, h] at hfalse
      cases hfalse
  · rintro ⟨rfl, rfl⟩
    exact ⟨[], List.forall_mem_nil _, .inr rfl⟩

/-- a text without line feeds is one line if nothing else breaks it, and more otherwise -/
theorem length_endedLines {l : List Char} (h : '\n' ∉ l) : (endedLines l).length = 1 ↔ OneLine l := by
  induction l with
  | nil => exact iff_of_true rfl ⟨[], List.forall_mem_nil _, .inl rfl⟩
  | cons c l ih =>
    obtain ⟨-, hl⟩ := not_or.1 fun hor => h (List.mem_cons.2 hor)
    cases hbreak : isLineBreak c with
    | false =>
      rw [oneLine_cons hbreak, ← ih hl, endedLines_cons hbreak, length_consLine c (endedLines_ne_nil l)]
    | true =>
      rw [oneLine_break hbreak]
      by_cases hone : c = '\r' ∧ l = []
      · obtain ⟨rfl, rfl⟩ := hone
        exact iff_of_true rfl ⟨rfl, rfl⟩
      · have hpos := List.length_pos_iff.2 (endedLines_ne_nil l)
        rw [endedLines_break hbreak hl hone, List.length_cons]
        exact iff_of_false (by omega) hone

theorem le_length_flatMap_endedLines (ls : List (List Char)) : ls.length ≤ (ls.flatMap endedLines).length := by
  induction ls with
  | nil => exact Nat.le_refl 0
  | cons l ls ih =>
    have hpos := List.length_pos_iff.2 (endedLines_ne_nil l)
    rw [List.flatMap_cons, List.length_append, List.length_cons]
    omega

theorem length_flatMap_endedLines {ls : List (List Char)} (h : ∀ l ∈ ls, '\n' ∉ l) :
    (ls.flatMap endedLines).length = ls.length ↔ ∀ l ∈ ls, OneLine l := by
  induction ls with
  | nil => exact iff_of_true rfl (List.forall_mem_nil _)
  | cons l ls ih =>
    obtain ⟨hl, hls⟩ := List.forall_mem_cons.1 h
    have hpos := List.length_pos_iff.2 (endedLines_ne_nil l)
    have hle := le_length_flatMap_endedLines ls
    rw [List.forall_mem_cons, ← ih hls, ← length_endedLines hl, List.flatMap_cons, List.length_append, List.length_cons]
    omega

/-! ## The lines between the line feeds -/

theorem length_splitOn_feed (cs : List Char) : (cs.splitOn '\n').length = cs.count '\n' + 1 := by
  induction cs with
  | nil => rfl
  | cons c cs ih =>
    rw [List.splitOn_cons_eq_if_modifyHead, List.count_cons]
    split <;> simp [ih]

theorem splitOn_feed_cases (cs : List Char) :
    ('\n' ∉ cs ∧ cs.splitOn '\n' = [cs]) ∨
      ∃ as bs, '\n' ∉ as ∧ cs = as ++ '\n' :: bs ∧ cs.splitOn '\n' = as :: bs.splitOn '\n' := by
  by_cases h : '\n' ∈ cs
  · obtain ⟨as, bs, rfl, has⟩ := List.eq_append_cons_of_mem h
    exact .inr ⟨as, bs, has, rfl, List.splitOn_append_cons_self_of_not_mem has bs⟩
  · exact .inl ⟨h, List.splitOn_eq_singleton h⟩

/-- induction on the lines between the line feeds: the last line, and a line with others below it -/
theorem feed_induction {motive : List Char → Prop} (last : ∀ line, '\n' ∉ line → motive line)
    (above : ∀ line below, '\n' ∉ line → motive below → motive (line ++ '\n' :: below)) (cs : List Char) : motive cs := by
  induction hn : cs.length using Nat.strong_induction_on generalizing cs with
  | _ n ih =>
    rcases splitOn_feed_cases cs with ⟨hcs, -⟩ | ⟨line, below, hline, rfl, -⟩
    · exact last cs hcs
    · refine above line below hline (ih below.length ?_ below rfl)
      rw [← hn, List.length_append, List.length_cons]
      omega

/-- **The lines around a line.** With the line `i` between the line feeds at hand, the lines of the text are those that
the lines above are, then those of the rest. -/
theorem exists_lines_append {cs line : List Char} {i : ℕ} (h : (cs.splitOn '\n')[i]? = some line) :
    '\n' ∉ line ∧ ∃ below, (∀ c ∈ below.head?, c = '\n') ∧
      lines cs = ((cs.splitOn '\n').take i).flatMap endedLines ++ lines (line ++ below) := by
  induction i generalizing cs with
  | zero =>
    rcases splitOn_feed_cases cs with ⟨hcs, hsplit⟩ | ⟨as, bs, has, rfl, hsplit⟩
    · rw [hsplit] at h
      cases h
      exact ⟨hcs, [], by simp, by simp⟩
    · rw [hsplit] at h
      cases h
      exact ⟨has, '\n' :: bs, by simp, by simp⟩
  | succ i ih =>
    rcases splitOn_feed_cases cs with ⟨hcs, hsplit⟩ | ⟨as, bs, has, rfl, hsplit⟩
    · rw [hsplit] at h
      cases h
    · rw [hsplit, List.getElem?_cons_succ] at h
      obtain ⟨hline, below, hbelow, hlines⟩ := ih h
      refine ⟨hline, below, hbelow, ?_⟩
      rw [lines_append_feed, hlines, hsplit, List.take_succ_cons, List.flatMap_cons, List.append_assoc]

/-- the first line of a text whose first line feed ends `line` is `line`, if nothing else breaks that -/
theorem head?_lines {line below shown : List Char} (hbelow : ∀ c ∈ below.head?, c = '\n') (h : Unbroken line)
    (hshown : (lines (line ++ below)).head? = some shown) : shown = line := by
  cases below with
  | nil =>
    rw [List.append_nil] at hshown
    by_cases hline : line = []
    · subst hline; cases hshown
    · rw [lines_unbroken h hline] at hshown
      exact (Option.some.inj hshown).symm
  | cons c below =>
    obtain rfl : c = '\n' := hbelow c rfl
    rw [lines_append_feed, endedLines_unbroken h] at hshown
    exact (Option.some.inj hshown).symm

/-- **When the two agree.** What `lines` gives for the line `i` is the line `i` between the line feeds if and only if
nothing breaks that, and the lines above are one line each, or are several of which one happens to be the same. -/
theorem getElem?_lines_eq_iff {cs line shown : List Char} {i : ℕ} (hline : (cs.splitOn '\n')[i]? = some line)
    (hshown : (lines cs)[i]? = some shown) :
    shown = line ↔ Unbroken line ∧ ((∀ l ∈ (cs.splitOn '\n').take i, OneLine l) ∨
      (((cs.splitOn '\n').take i).flatMap endedLines)[i]? = some line) := by
  have hfeed : ∀ l ∈ (cs.splitOn '\n').take i, '\n' ∉ l := by
    intro l hl
    obtain ⟨j, hj⟩ := List.getElem?_of_mem (List.mem_of_mem_take hl)
    exact (exists_lines_append hj).1
  have hlen : ((cs.splitOn '\n').take i).length = i := by
    obtain ⟨hi, -⟩ := List.getElem?_eq_some_iff.1 hline
    exact List.length_take_of_le (Nat.le_of_lt hi)
  obtain ⟨-, below, hbelow, hlines⟩ := exists_lines_append hline
  have hunbroken : Unbroken shown := unbroken_of_mem_lines (List.mem_of_getElem? hshown)
  rw [hlines] at hshown
  by_cases habove : ∀ l ∈ (cs.splitOn '\n').take i, OneLine l
  · have hi := (length_flatMap_endedLines hfeed).2 habove
    rw [hlen] at hi
    rw [List.getElem?_append_right (Nat.le_of_eq hi), hi, Nat.sub_self, ← List.head?_eq_getElem?] at hshown
    refine ⟨?_, fun h => head?_lines hbelow h.1 hshown⟩
    rintro rfl
    exact ⟨hunbroken, .inl habove⟩
  · have hi : i < (((cs.splitOn '\n').take i).flatMap endedLines).length := by
      have hle := le_length_flatMap_endedLines ((cs.splitOn '\n').take i)
      have hne := mt (length_flatMap_endedLines hfeed).1 habove
      omega
    rw [List.getElem?_append_left hi] at hshown
    constructor
    · rintro rfl
      exact ⟨hunbroken, .inr hshown⟩
    · rintro ⟨-, h | h⟩
      · exact absurd h habove
      · exact Option.some.inj (hshown.symm.trans h)

/-! ## Texts with line feeds only -/

/-- no line break but the line feed stands in the text -/
def FeedsOnly (cs : List Char) : Prop := ∀ c ∈ cs, isLineBreak c = true → c = '\n'

-- spelled out, since Batteries also decides statements about all characters, by going through every one of them
instance (cs : List Char) : Decidable (FeedsOnly cs) :=
  List.decidableBAll (fun c => isLineBreak c = true → c = '\n') cs

theorem FeedsOnly.of_append {as bs : List Char} (h : FeedsOnly (as ++ bs)) : FeedsOnly as ∧ FeedsOnly bs :=
  List.forall_mem_append.1 h

theorem FeedsOnly.unbroken {line : List Char} (h : FeedsOnly line) (hline : '\n' ∉ line) : Unbroken line := by
  intro c hc
  by_contra hbreak
  obtain rfl := h c hc (by simpa using hbreak)
  exact hline hc

/-- **The lines of such a text** are those between the line feeds, but for an empty one behind the last line feed. -/
theorem FeedsOnly.getElem?_lines {cs line : List Char} {i : ℕ} (h : FeedsOnly cs)
    (hline : (cs.splitOn '\n')[i]? = some line) :
    (lines cs)[i]? = if i + 1 = (cs.splitOn '\n').length ∧ line = [] then none else some line := by
  induction cs using feed_induction generalizing i with
  | last body hbody =>
    rw [List.splitOn_eq_singleton hbody] at hline ⊢
    obtain ⟨rfl, rfl⟩ : i = 0 ∧ body = line := by
      cases i with
      | zero => exact ⟨rfl, Option.some.inj hline⟩
      | succ i => cases hline
    by_cases hnil : body = []
    · subst hnil
      rfl
    · rw [lines_unbroken (h.unbroken hbody) hnil]
      simp [hnil]
  | above body below hbody ih =>
    obtain ⟨hfirst, hrest⟩ := h.of_append
    have hlines : lines (body ++ '\n' :: below) = body :: lines below := by
      rw [lines_append_feed, endedLines_unbroken (hfirst.unbroken hbody)]
      rfl
    have hpos := List.length_pos_iff.2 (List.splitOn_ne_nil '\n' below)
    rw [List.splitOn_append_cons_self_of_not_mem hbody] at hline ⊢
    rw [hlines, List.length_cons]
    cases i with
    | zero =>
      obtain rfl := Option.some.inj hline
      rw [if_neg (by omega)]
      rfl
    | succ i =>
      rw [List.getElem?_cons_succ] at hline ⊢
      rw [ih (fun c hc => hrest c (List.mem_cons_of_mem _ hc)) hline]
      simp only [Nat.add_right_cancel_iff]

/-- the last line between the line feeds is empty if the text is, or if a line feed ends it -/
theorem last_line_eq_nil_iff {cs line : List Char} {i : ℕ} (hline : (cs.splitOn '\n')[i]? = some line)
    (hi : i + 1 = (cs.splitOn '\n').length) : line = [] ↔ cs = [] ∨ cs.getLast? = some '\n' := by
  induction cs using feed_induction generalizing i with
  | last body hbody =>
    rw [List.splitOn_eq_singleton hbody] at hline hi
    obtain rfl : i = 0 := Nat.succ.inj hi
    obtain rfl := Option.some.inj hline
    refine ⟨.inl, fun h => h.resolve_right fun hlast => hbody (List.mem_of_getLast? hlast)⟩
  | above body below hbody ih =>
    have hpos := List.length_pos_iff.2 (List.splitOn_ne_nil '\n' below)
    rw [List.splitOn_append_cons_self_of_not_mem hbody, List.length_cons] at hi
    rw [List.splitOn_append_cons_self_of_not_mem hbody] at hline
    cases i with
    | zero => omega
    | succ i =>
      rw [List.getElem?_cons_succ] at hline
      rw [ih hline (Nat.succ.inj hi)]
      cases below with
      | nil => simp
      | cons c below => simp [List.getLast?_append, List.getLast?_cons_cons]

end LetFront.Text
