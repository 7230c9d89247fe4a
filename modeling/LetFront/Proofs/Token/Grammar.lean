/-
The forms of the language, told without a scanner. A gap is made of white space and whole comments. A lexeme has one of
eight forms, and fits where it stands if it could not be longer there.

Main statements: `gap_append` and `exists_gap`, `gap` takes all of a gap and leaves none behind; `Lexeme.first_fits` and
`Lexeme.first_of_fits`, `Lexeme.first` takes the one lexeme that fits.
-/
import Mathlib.Tactic
import LetFront.Token.Gap
import LetFront.Token.Lexeme

namespace LetFront

/-- white space or a comment begins here -/
def StartsGap (cs : List Char) : Prop := (∃ c ∈ cs.head?, isSpace c = true) ∨ ['/', '/'] <+: cs

/-- `g`, with `after` behind it, is made of white space and comments; a comment runs up to the next line feed, or to the
end of the text -/
inductive IsGap : List Char → List Char → Prop
  | nil (after : List Char) : IsGap [] after
  | space {c : Char} {g after : List Char} (hc : isSpace c = true) (hg : IsGap g after) : IsGap (c :: g) after
  | comment {body g after : List Char} (hb : ∀ c ∈ body, c ≠ '\n') (hend : ∀ c ∈ (g ++ after).head?, c = '\n')
      (hg : IsGap g after) : IsGap ('/' :: '/' :: (body ++ g)) after

/-- the lexeme has a form of the language and cannot be longer in front of `after` -/
inductive Lexeme.Fits : Lexeme → List Char → Prop
  | word {c : Char} {cs after : List Char} (hw : ∀ d ∈ c :: cs, isWordChar d = true) (hc : isDigit c = false)
      (ha : ∀ d ∈ after.head?, isWordChar d = false) :
      Fits ⟨wordKind (String.ofList (c :: cs)), c :: cs⟩ after
  | int {ds after : List Char} (hne : ds ≠ []) (hd : ∀ d ∈ ds, isDigit d = true)
      (ha : ∀ d ∈ after.head?, isDigit d = false ∧ d ≠ '.') : Fits ⟨.int, ds⟩ after
  | float {ds es after : List Char} (hd : ∀ d ∈ ds, isDigit d = true) (he : ∀ d ∈ es, isDigit d = true)
      (ha : ∀ d ∈ after.head?, isDigit d = false ∧ d ≠ '.') : Fits ⟨.float, ds ++ '.' :: es⟩ after
  /-- a second point ends a number and makes it illegal -/
  | twoPoints {ds es : List Char} (after : List Char) (hd : ∀ d ∈ ds, isDigit d = true)
      (he : ∀ d ∈ es, isDigit d = true) : Fits ⟨.illegal, ds ++ '.' :: (es ++ ['.'])⟩ after
  | single {c : Char} {k k' : Kind} {after : List Char} (hc : comparisons.lookup c = some (k, k'))
      (ha : after.head? ≠ some '=') : Fits ⟨k, [c]⟩ after
  | double {c : Char} {k k' : Kind} (after : List Char) (hc : comparisons.lookup c = some (k, k')) :
      Fits ⟨k', [c, '=']⟩ after
  | symbol {c : Char} {k : Kind} (after : List Char) (hc : symbols.lookup c = some k) : Fits ⟨k, [c]⟩ after
  /-- a character with which no other lexeme begins -/
  | unknown {c : Char} (after : List Char) (hw : isWordChar c = false) (hp : c ≠ '.')
      (hc : comparisons.lookup c = none) (hs : symbols.lookup c = none) : Fits ⟨.illegal, [c]⟩ after

/-- what is left when a test has taken all it can begins with something that fails the test -/
theorem head?_dropWhile_stops {α : Type} (p : α → Bool) (xs : List α) : ∀ x ∈ (xs.dropWhile p).head?, p x = false := by
  intro x hx
  have hstop := List.head?_dropWhile_not p xs
  rw [Option.mem_def.1 hx] at hstop
  simpa using hstop

/-! ## Gaps -/

theorem not_startsGap_nil : ¬ StartsGap [] := by
  rintro (⟨c, hc, -⟩ | h)
  · cases hc
  · simp at h

theorem gap_space {c : Char} (cs : List Char) (hc : isSpace c = true) : gap (c :: cs) = c :: gap cs := by
  simp [gap, gapFrom, hc]

theorem gap_of_not_startsGap {cs : List Char} (h : ¬ StartsGap cs) : gap cs = [] := by
  cases cs with
  | nil => rfl
  | cons c cs =>
    have hspace : ¬ isSpace c = true := fun hc => h (.inl ⟨c, rfl, hc⟩)
    have hslash : ¬ (c = '/' ∧ cs.head? = some '/') := by
      rintro ⟨rfl, hhead⟩
      obtain ⟨ds, rfl⟩ := List.head?_eq_some_iff.1 hhead
      exact h (.inr ⟨ds, rfl⟩)
    simp only [gap, gapFrom]
    rw [if_neg hspace, if_neg hslash]

theorem gapFrom_comment_append {body : List Char} (cs : List Char) (hb : ∀ c ∈ body, c ≠ '\n') :
    gapFrom .comment (body ++ cs) = body ++ gapFrom .comment cs := by
  induction body with
  | nil => rfl
  | cons c body ih =>
    obtain ⟨hc, hb'⟩ := List.forall_mem_cons.1 hb
    simp [gapFrom, hc, ih hb']

/-- a comment that a line feed or the end of the text follows is over -/
theorem gapFrom_comment_of_end {cs : List Char} (h : ∀ c ∈ cs.head?, c = '\n') : gapFrom .comment cs = gap cs := by
  cases cs with
  | nil => rfl
  | cons c cs =>
    have hc : c = '\n' := h c rfl
    subst hc
    rfl

theorem gap_comment {body : List Char} {cs : List Char} (hb : ∀ c ∈ body, c ≠ '\n')
    (hend : ∀ c ∈ cs.head?, c = '\n') : gap ('/' :: '/' :: (body ++ cs)) = '/' :: '/' :: (body ++ gap cs) := by
  have hopen : gap ('/' :: '/' :: (body ++ cs)) = '/' :: '/' :: gapFrom .comment (body ++ cs) := rfl
  rw [hopen, gapFrom_comment_append cs hb, gapFrom_comment_of_end hend]

/-- **A gap is taken whole.** Where no gap can begin behind it, `gap` takes a gap and nothing else. -/
theorem gap_append {g after : List Char} (hg : IsGap g after) (ha : ¬ StartsGap after) : gap (g ++ after) = g := by
  induction hg with
  | nil => exact gap_of_not_startsGap ha
  | space hc _ ih => rw [List.cons_append, gap_space _ hc, ih ha]
  | comment hb hend _ ih =>
    rw [List.cons_append, List.cons_append, List.append_assoc, gap_comment hb hend, ih ha]

/-- a text is a gap with something behind it where no gap can begin -/
theorem exists_gap (cs : List Char) : ∃ g after, cs = g ++ after ∧ IsGap g after ∧ ¬ StartsGap after := by
  induction hn : cs.length using Nat.strong_induction_on generalizing cs with
  | _ n ih =>
    by_cases hstart : StartsGap cs
    · rcases hstart with ⟨c, hhead, hc⟩ | ⟨ds, rfl⟩
      · obtain ⟨ds, rfl⟩ := List.head?_eq_some_iff.1 hhead
        obtain ⟨g, after, rfl, hg, ha⟩ := ih ds.length (by simp [← hn]) ds rfl
        exact ⟨c :: g, after, rfl, .space hc hg, ha⟩
      · have hlen : (ds.dropWhile (· ≠ '\n')).length < n := by
          have := (List.dropWhile_sublist (· ≠ '\n') (l := ds)).length_le
          simp only [List.length_append, List.length_cons] at hn
          omega
        obtain ⟨g, after, hds, hg, ha⟩ := ih _ hlen (ds.dropWhile (· ≠ '\n')) rfl
        refine ⟨'/' :: '/' :: (ds.takeWhile (· ≠ '\n') ++ g), after, ?_, .comment ?_ ?_ hg, ha⟩
        · simp [← hds, List.takeWhile_append_dropWhile]
        · intro c hc
          simpa using List.all_eq_true.1 List.all_takeWhile c hc
        · intro c hc
          rw [← hds] at hc
          simpa using head?_dropWhile_stops (fun c : Char => decide (c ≠ '\n')) ds c hc
    · exact ⟨[], cs, rfl, .nil cs, hstart⟩

/-! ## Lexemes -/

namespace Lexeme

theorem number_append {ds : List Char} (pointSeen : Bool) (cs : List Char) (hd : ∀ d ∈ ds, isDigit d = true) :
    number pointSeen (ds ++ cs) = ⟨(number pointSeen cs).kind, ds ++ (number pointSeen cs).text⟩ := by
  induction ds with
  | nil => rfl
  | cons d ds ih =>
    obtain ⟨hdigit, hd'⟩ := List.forall_mem_cons.1 hd
    simp [number, hdigit, ih hd', cons]

theorem number_of_stop {cs : List Char} (pointSeen : Bool) (h : ∀ d ∈ cs.head?, isDigit d = false ∧ d ≠ '.') :
    number pointSeen cs = ⟨if pointSeen then .float else .int, []⟩ := by
  cases cs with
  | nil => rfl
  | cons c cs =>
    obtain ⟨hd, hp⟩ := h c rfl
    simp [number, hd, hp]

theorem number_point (cs : List Char) : number false ('.' :: cs) = cons '.' (number true cs) := rfl

theorem number_second_point (cs : List Char) : number true ('.' :: cs) = ⟨.illegal, ['.']⟩ := rfl

/-- the digits at the front of a text, and what stops them -/
theorem exists_digits (cs : List Char) :
    ∃ ds after, cs = ds ++ after ∧ (∀ d ∈ ds, isDigit d = true) ∧ ∀ d ∈ after.head?, isDigit d = false := by
  refine ⟨cs.takeWhile isDigit, cs.dropWhile isDigit, List.takeWhile_append_dropWhile.symm, ?_, ?_⟩
  · exact List.all_eq_true.1 List.all_takeWhile
  · exact head?_dropWhile_stops isDigit cs

/-- behind a point a number goes on to its last digit, or breaks off at a second point -/
theorem exists_number_true (cs : List Char) :
    ∃ es after, cs = es ++ after ∧ (∀ d ∈ es, isDigit d = true) ∧
      ((number true cs = ⟨.float, es⟩ ∧ ∀ d ∈ after.head?, isDigit d = false ∧ d ≠ '.') ∨
        ∃ after', after = '.' :: after' ∧ number true cs = ⟨.illegal, es ++ ['.']⟩) := by
  obtain ⟨es, after, rfl, he, hstop⟩ := exists_digits cs
  refine ⟨es, after, rfl, he, ?_⟩
  by_cases hpoint : after.head? = some '.'
  · obtain ⟨after', rfl⟩ := List.head?_eq_some_iff.1 hpoint
    exact .inr ⟨after', rfl, by rw [number_append _ _ he, number_second_point]⟩
  · have hend : ∀ d ∈ after.head?, isDigit d = false ∧ d ≠ '.' := fun d hd =>
      ⟨hstop d hd, fun heq => hpoint (heq ▸ hd)⟩
    refine .inl ⟨?_, hend⟩
    rw [number_append _ _ he, number_of_stop _ hend]
    simp

/-- a number that is not empty fits -/
theorem number_fits {cs : List Char} (hne : (number false cs).text ≠ []) :
    ∃ after, (number false cs).Fits after ∧ (number false cs).text ++ after = cs := by
  obtain ⟨ds, rest, rfl, hd, hstop⟩ := exists_digits cs
  by_cases hpoint : rest.head? = some '.'
  · obtain ⟨rest, rfl⟩ := List.head?_eq_some_iff.1 hpoint
    obtain ⟨es, after, rfl, he, ⟨hnum, hend⟩ | ⟨after', rfl, hnum⟩⟩ := exists_number_true rest
    · rw [number_append _ _ hd, number_point, hnum]
      exact ⟨after, .float hd he hend, by simp [cons]⟩
    · rw [number_append _ _ hd, number_point, hnum]
      exact ⟨after', .twoPoints after' hd he, by simp [cons]⟩
  · have hend : ∀ d ∈ rest.head?, isDigit d = false ∧ d ≠ '.' := fun d hmem =>
      ⟨hstop d hmem, fun heq => hpoint (heq ▸ hmem)⟩
    have hnum : number false (ds ++ rest) = ⟨.int, ds⟩ := by
      rw [number_append _ _ hd, number_of_stop _ hend]
      simp
    rw [hnum] at hne ⊢
    exact ⟨rest, .int hne hd hend, rfl⟩

theorem mem_of_lookup {α β : Type} [BEq α] [LawfulBEq α] {table : List (α × β)} {a : α} {b : β}
    (h : table.lookup a = some b) : (a, b) ∈ table := by
  obtain ⟨l, r, rfl, -⟩ := List.lookup_eq_some_iff.1 h
  exact List.mem_append_right l List.mem_cons_self

theorem lookup_none_of_isWordChar {α : Type} {table : List (Char × α)} (htable : ∀ p ∈ table, isWordChar p.1 = false)
    {c : Char} (h : isWordChar c = true) : table.lookup c = none := by
  refine List.lookup_eq_none_iff.2 ?_
  intro p hp
  have hne : c ≠ p.1 := by
    rintro rfl
    rw [htable p hp] at h
    cases h
  simpa using hne

/-- no operator and no symbol is a character of words -/
theorem lookup_of_isWordChar {c : Char} (h : isWordChar c = true) :
    comparisons.lookup c = none ∧ symbols.lookup c = none :=
  ⟨lookup_none_of_isWordChar (by decide) h, lookup_none_of_isWordChar (by decide) h⟩

theorem isWordChar_of_isDigit {c : Char} (h : isDigit c = true) : isWordChar c = true := by
  have hascii : c.toNat < 128 := by
    simp only [isDigit, Char.isDigit, Bool.and_eq_true, decide_eq_true_eq] at h
    have := UInt32.le_iff_toNat_le.1 h.2
    exact Nat.lt_of_le_of_lt this (by decide)
  simp only [isDigit] at h
  simp [isWordChar, Text.isAlphanumeric, hascii, Char.isAlphanum, h]

theorem first_of_number {c : Char} (cs : List Char) (h : isDigit c = true ∨ c = '.') :
    first c cs = number false (c :: cs) := by
  unfold first
  rcases h with h | rfl
  · obtain ⟨hc, hs⟩ := lookup_of_isWordChar (isWordChar_of_isDigit h)
    rw [hc, hs]
    simp [h]
  · rfl

/-- digits with a point behind them are the front of a number -/
theorem first_of_point {ds : List Char} (cs : List Char) (hd : ∀ d ∈ ds, isDigit d = true) :
    ∃ c cs', ds ++ '.' :: cs = c :: cs' ∧ first c cs' = number false (ds ++ '.' :: cs) := by
  cases ds with
  | nil => exact ⟨'.', cs, rfl, first_of_number cs (.inr rfl)⟩
  | cons d ds => exact ⟨d, ds ++ '.' :: cs, rfl, first_of_number _ (.inl (hd d List.mem_cons_self))⟩

theorem word_of_isWordChar {c : Char} (cs : List Char) (h : isWordChar c = true) :
    word (c :: cs) =
      ⟨wordKind (String.ofList (c :: cs.takeWhile isWordChar)), c :: cs.takeWhile isWordChar⟩ := by
  unfold word
  rw [List.takeWhile_cons_of_pos h]

theorem word_of_not_isWordChar {c : Char} (cs : List Char) (h : isWordChar c = false) :
    word (c :: cs) = ⟨.illegal, [c]⟩ := by
  unfold word
  rw [List.takeWhile_cons_of_neg (by simp [h])]
  rfl

theorem first_of_word {c : Char} (cs : List Char) (hc : comparisons.lookup c = none) (hs : symbols.lookup c = none)
    (hd : isDigit c = false) (hp : c ≠ '.') : first c cs = word (c :: cs) := by
  unfold first
  rw [hc, hs]
  simp [hd, hp]

/-- **The first lexeme fits.** What `Lexeme.first` takes stands at the front and cannot be longer there. -/
theorem first_fits (c : Char) (cs : List Char) :
    ∃ after, (first c cs).Fits after ∧ (first c cs).text ++ after = c :: cs := by
  cases hc : comparisons.lookup c with
  | some ks =>
    by_cases heq : cs.head? = some '='
    · obtain ⟨after, rfl⟩ := List.head?_eq_some_iff.1 heq
      have hfirst : first c ('=' :: after) = ⟨ks.2, [c, '=']⟩ := by simp [first, hc]
      exact ⟨after, hfirst ▸ .double after hc, by rw [hfirst]; rfl⟩
    · have hfirst : first c cs = ⟨ks.1, [c]⟩ := by simp [first, hc, heq]
      exact ⟨cs, hfirst ▸ .single hc heq, by rw [hfirst]; rfl⟩
  | none =>
    cases hs : symbols.lookup c with
    | some k =>
      have hfirst : first c cs = ⟨k, [c]⟩ := by simp [first, hc, hs]
      exact ⟨cs, hfirst ▸ .symbol cs hs, by rw [hfirst]; rfl⟩
    | none =>
      by_cases hnum : isDigit c = true ∨ c = '.'
      · rw [first_of_number cs hnum]
        exact number_fits (number_text_ne_nil c cs (by simpa using hnum))
      obtain ⟨hd, hp⟩ := not_or.1 hnum
      rw [first_of_word cs hc hs (by simpa using hd) hp]
      by_cases hw : isWordChar c = true
      · rw [word_of_isWordChar cs hw]
        refine ⟨cs.dropWhile isWordChar, .word ?_ (by simpa using hd) ?_, ?_⟩
        · exact List.forall_mem_cons.2 ⟨hw, List.all_eq_true.1 List.all_takeWhile⟩
        · exact head?_dropWhile_stops isWordChar cs
        · rw [List.cons_append, List.takeWhile_append_dropWhile]
      · rw [word_of_not_isWordChar cs (by simpa using hw)]
        exact ⟨cs, .unknown cs (by simpa using hw) hp hc hs, rfl⟩

/-- **What fits is the first lexeme.** A lexeme that cannot be longer where it stands is what `Lexeme.first` takes. -/
theorem first_of_fits {x : Lexeme} {after : List Char} (h : x.Fits after) :
    ∃ c cs, x.text ++ after = c :: cs ∧ first c cs = x := by
  cases h with
  | word hw hd ha =>
    rename_i c cs
    obtain ⟨hc, hcs⟩ := List.forall_mem_cons.1 hw
    obtain ⟨h1, h2⟩ := lookup_of_isWordChar hc
    have hp : c ≠ '.' := fun heq => absurd (heq ▸ hc) (by decide)
    have hstop : after.takeWhile isWordChar = [] := by
      cases after with
      | nil => rfl
      | cons a after => exact List.takeWhile_cons_of_neg (by simp [ha a rfl])
    refine ⟨c, cs ++ after, rfl, ?_⟩
    rw [first_of_word _ h1 h2 hd hp, word_of_isWordChar _ hc, List.takeWhile_append_of_pos hcs, hstop, List.append_nil]
  | int hne hd ha =>
    obtain ⟨d, ds, rfl⟩ := List.exists_cons_of_ne_nil hne
    refine ⟨d, ds ++ after, rfl, ?_⟩
    rw [first_of_number _ (.inl (hd d List.mem_cons_self)), ← List.cons_append, number_append _ _ hd,
      number_of_stop _ ha]
    simp
  | float hd he ha =>
    rename_i ds es
    obtain ⟨c, cs, hcs, hfirst⟩ := first_of_point (es ++ after) hd
    refine ⟨c, cs, by rw [← hcs]; simp, ?_⟩
    rw [hfirst, number_append _ _ hd, number_point, number_append _ _ he, number_of_stop _ ha]
    simp [cons]
  | twoPoints _ hd he =>
    rename_i ds es
    obtain ⟨c, cs, hcs, hfirst⟩ := first_of_point (es ++ '.' :: after) hd
    refine ⟨c, cs, by rw [← hcs]; simp, ?_⟩
    rw [hfirst, number_append _ _ hd, number_point, number_append _ _ he, number_second_point]
    simp [cons]
  | single hc ha => exact ⟨_, after, rfl, by simp [first, hc, ha]⟩
  | double _ hc => exact ⟨_, '=' :: after, rfl, by simp [first, hc]⟩
  | symbol _ hs =>
    rename_i c k
    have hnone : ∀ p ∈ symbols, comparisons.lookup p.1 = none := by decide
    have hc : comparisons.lookup c = none := hnone (c, k) (mem_of_lookup hs)
    exact ⟨c, after, rfl, by simp [first, hc, hs]⟩
  | unknown _ hw hp hc hs =>
    rename_i c
    have hd : isDigit c = false := by
      by_contra hd
      rw [isWordChar_of_isDigit (by simpa using hd)] at hw
      cases hw
    exact ⟨c, after, rfl, by rw [first_of_word _ hc hs hd hp, word_of_not_isWordChar _ hw]⟩

theorem Fits.text_ne_nil {x : Lexeme} {after : List Char} (h : x.Fits after) : x.text ≠ [] := by
  cases h with
  | int hne _ _ => exact hne
  | float _ _ _ => simp
  | twoPoints _ _ _ => simp
  | _ => exact List.cons_ne_nil _ _

/-- how the lexemes that have one text only are written -/
def spellings : List (String × Kind) :=
  keywords ++ (comparisons.flatMap fun (c, k, k') => [(String.ofList [c], k), (String.ofList [c, '='], k')]) ++
    symbols.map fun (c, k) => (String.ofList [c], k)

/-- a lexeme is illegal, a name or a number, or its kind has one text only -/
theorem Fits.mem_spellings {x : Lexeme} {after : List Char} (h : x.Fits after) :
    x.kind ∈ [.illegal, .identifier, .int, .float] ∨ (String.ofList x.text, x.kind) ∈ spellings := by
  cases h with
  | @word c cs _ _ _ _ =>
    change wordKind _ ∈ _ ∨ (_, wordKind _) ∈ _
    unfold wordKind
    cases hk : keywords.lookup (String.ofList (c :: cs)) with
    | none => exact .inl (by decide)
    | some k => exact .inr (List.mem_append_left _ (List.mem_append_left _ (mem_of_lookup hk)))
  | single hc _ =>
    exact .inr (List.mem_append_left _ (List.mem_append_right _
      (List.mem_flatMap.2 ⟨_, mem_of_lookup hc, List.mem_cons_self⟩)))
  | double _ hc =>
    exact .inr (List.mem_append_left _ (List.mem_append_right _
      (List.mem_flatMap.2 ⟨_, mem_of_lookup hc, List.mem_cons_of_mem _ List.mem_cons_self⟩)))
  | symbol _ hs => exact .inr (List.mem_append_right _ (List.mem_map_of_mem (mem_of_lookup hs)))
  | _ => exact .inl (by simp)

/-- no lexeme passes for the end of the input -/
theorem Fits.kind_ne {x : Lexeme} {after : List Char} (h : x.Fits after) : x.kind ≠ .endOfInput := by
  have hspellings : ∀ p ∈ spellings, p.2 ≠ .endOfInput := by decide
  rcases h.mem_spellings with hk | hk
  · intro hend
    rw [hend] at hk
    exact absurd hk (by decide)
  · exact hspellings _ hk

/-- a lexeme whose kind has one text only is that text -/
theorem Fits.text_eq {x : Lexeme} {after : List Char} (h : x.Fits after) {k : Kind} {word : String} (hk : x.kind = k)
    (hfree : k ∉ [.illegal, .identifier, .int, .float]) (hword : ∀ p ∈ spellings, p.2 = k → p.1 = word) :
    x.text = word.toList := by
  subst hk
  have hmem := h.mem_spellings.resolve_left hfree
  rw [← hword _ hmem rfl, String.toList_ofList]

/-- a name or a number is a word that does not begin with a digit, or has digits and points only -/
theorem Fits.word_or_number {x : Lexeme} {after : List Char} (h : x.Fits after)
    (hk : x.kind ∈ [.identifier, .int, .float]) :
    (x.kind = wordKind (String.ofList x.text) ∧ (∀ c ∈ x.text, isWordChar c = true) ∧
      ∀ c ∈ x.text.head?, isDigit c = false) ∨
    (x.kind ≠ .identifier ∧ ∀ c ∈ x.text, isDigit c = true ∨ c = '.') := by
  have hcomparisons : ∀ p ∈ comparisons, p.2.1 ∉ [.identifier, .int, .float] ∧ p.2.2 ∉ [.identifier, .int, .float] := by
    decide
  have hsymbols : ∀ p ∈ symbols, p.2 ∉ [.identifier, .int, .float] := by decide
  cases h with
  | word hw hc _ =>
    refine .inl ⟨rfl, hw, fun d hd => ?_⟩
    cases hd
    exact hc
  | int _ hd _ => exact .inr ⟨by simp, fun c hc => .inl (hd c hc)⟩
  | float hd he _ =>
    refine .inr ⟨by simp, fun c hc => ?_⟩
    rcases List.mem_append.1 hc with hc | hc
    · exact .inl (hd c hc)
    · rcases List.mem_cons.1 hc with rfl | hc
      · exact .inr rfl
      · exact .inl (he c hc)
  | single hc _ => exact absurd hk (hcomparisons _ (mem_of_lookup hc)).1
  | double _ hc => exact absurd hk (hcomparisons _ (mem_of_lookup hc)).2
  | symbol _ hs => exact absurd hk (hsymbols _ (mem_of_lookup hs))
  | twoPoints => simp at hk
  | unknown => simp at hk

end Lexeme

end LetFront
