/-
Quoted texts are read back. Between the quotes every character is written in a way of its own: as it is, behind a
backslash, by a letter or by its code in a fixed number of digits. So the character at the front is found again whatever
follows it, and since none has the quote in use at its front, the closing quote is found too.

`Escaped mark c cs`: in quotes of the kind `mark` the character `c` is written as `cs`. `Printable s`: every character of
the text is printable. Line breaks are not, so such a text stands on one line.

Main statements: `escaped_escapeChar`, the ways in which a character is written; `Escaped.unescape?_append`, it is read back;
`quotedChars_append_inj`, a quoted text is found again in front of any other; `printable_quoted`, quoting leaves
printable characters only; `Printable.unbroken`, and these break no line.
-/
import LetFront.Proofs.Text.Fields
import LetFront.Proofs.Text.Lines
import LetFront.Text.Quoted

namespace LetFront.Text

/-! ## Codes -/

def hexValue (c : Char) : ℕ := if c.isDigit then c.toNat - '0'.toNat else c.toNat - 'a'.toNat + 10

/-- the number that hexadecimal digits spell -/
def readHex (cs : List Char) : ℕ := cs.foldl (fun n c => 16 * n + hexValue c) 0

theorem hexValue_hexDigit {n : ℕ} (h : n < 16) : hexValue (hexDigit n) = n := by
  have hall : ∀ m < 16, hexValue (hexDigit m) = m := by decide
  exact hall n h

theorem length_hexDigits (width n : ℕ) : (hexDigits width n).length = width := by
  induction width generalizing n with
  | zero => rfl
  | succ width ih => rw [hexDigits, List.length_append, ih, List.length_singleton]

theorem readHex_hexDigits (width n : ℕ) : readHex (hexDigits width n) = n % 16 ^ width := by
  induction width generalizing n with
  | zero =>
    rw [Nat.pow_zero, Nat.mod_one]
    rfl
  | succ width ih =>
    have hlast : hexValue (hexDigit (n % 16)) = n % 16 := hexValue_hexDigit (Nat.mod_lt n (by decide))
    have hfront : (hexDigits width (n / 16)).foldl (fun n c => 16 * n + hexValue c) 0 = n / 16 % 16 ^ width := ih (n / 16)
    rw [hexDigits, readHex, List.foldl_append, hfront, List.foldl_cons, List.foldl_nil, hlast, Nat.pow_succ',
      Nat.mod_mul, Nat.add_comm]

/-! ## The ways to write a character -/

/-- the two kinds of quote -/
def IsQuote (mark : Char) : Prop := mark = '\'' ∨ mark = '"'

theorem isQuote_quoteMark (cs : List Char) : IsQuote (quoteMark cs) := by
  unfold quoteMark
  split
  · exact .inr rfl
  · exact .inl rfl

inductive Escaped (mark c : Char) : List Char → Prop
  | slash (h : c = mark ∨ c = '\\') : Escaped mark c ['\\', c]
  | letter {letter : Char} (h : (c, letter) ∈ [('\n', 'n'), ('\r', 'r'), ('\t', 't')]) : Escaped mark c ['\\', letter]
  | plain (hmark : c ≠ mark) (hslash : c ≠ '\\') (hprint : isPrintable c = true) : Escaped mark c [c]
  | code {letter : Char} {width : ℕ} (h : (letter, width) ∈ [('x', 2), ('u', 4), ('U', 8)])
      (hwidth : c.toNat < 16 ^ width) : Escaped mark c ('\\' :: letter :: hexDigits width c.toNat)

theorem escaped_escapeCode (mark c : Char) : Escaped mark c (escapeCode c.toNat) := by
  unfold escapeCode
  split
  · next h => exact .code (by decide) h
  · split
    · next h => exact .code (by decide) h
    · exact .code (by decide) (c.toNat_le_max.trans_lt (by decide))

/-- **A character is written in one of these ways.** -/
theorem escaped_escapeChar (mark c : Char) : Escaped mark c (escapeChar mark c) := by
  unfold escapeChar
  split
  · next h => exact .slash h
  · next h =>
    obtain ⟨hmark, hslash⟩ := not_or.1 h
    split
    · next h => exact .letter (by simp [h])
    · split
      · next h => exact .letter (by simp [h])
      · split
        · next h => exact .letter (by simp [h])
        · split
          · next hprint => exact .plain hmark hslash hprint
          · exact escaped_escapeCode mark c

/-! ## Reading back -/

/-- the character at the front of a quoted text, and what follows it -/
def unescape? : List Char → Option (Char × List Char)
  | '\\' :: 'n' :: rest => some ('\n', rest)
  | '\\' :: 'r' :: rest => some ('\r', rest)
  | '\\' :: 't' :: rest => some ('\t', rest)
  | '\\' :: 'x' :: rest => some (Char.ofNat (readHex (rest.take 2)), rest.drop 2)
  | '\\' :: 'u' :: rest => some (Char.ofNat (readHex (rest.take 4)), rest.drop 4)
  | '\\' :: 'U' :: rest => some (Char.ofNat (readHex (rest.take 8)), rest.drop 8)
  | '\\' :: c :: rest => some (c, rest)
  | c :: rest => some (c, rest)
  | [] => none

/-- a code is read back from its digits, whatever follows them -/
theorem readHex_take {width : ℕ} {c : Char} (h : c.toNat < 16 ^ width) (rest : List Char) :
    some (Char.ofNat (readHex ((hexDigits width c.toNat ++ rest).take width)),
      (hexDigits width c.toNat ++ rest).drop width) = some (c, rest) := by
  have hlength := length_hexDigits width c.toNat
  rw [List.take_left' hlength, List.drop_left' hlength, readHex_hexDigits, Nat.mod_eq_of_lt h, Char.ofNat_toNat]

/-- **One character is read back**, whatever follows it. -/
theorem Escaped.unescape?_append {mark c : Char} {cs : List Char} (h : Escaped mark c cs) (hmark : IsQuote mark)
    (rest : List Char) : unescape? (cs ++ rest) = some (c, rest) := by
  cases h with
  | slash h =>
    rcases h with rfl | rfl
    · rcases hmark with rfl | rfl <;> rfl
    · rfl
  | letter h =>
    simp only [List.mem_cons, Prod.mk.injEq, List.not_mem_nil, or_false] at h
    rcases h with ⟨rfl, rfl⟩ | ⟨rfl, rfl⟩ | ⟨rfl, rfl⟩ <;> rfl
  | plain _ hslash _ => simp [unescape?, hslash]
  | code h hwidth =>
    simp only [List.mem_cons, Prod.mk.injEq, List.not_mem_nil, or_false] at h
    rcases h with ⟨rfl, rfl⟩ | ⟨rfl, rfl⟩ | ⟨rfl, rfl⟩ <;> exact readHex_take hwidth rest

/-- no character begins with the quote in use -/
theorem Escaped.head?_append {mark c : Char} {cs : List Char} (h : Escaped mark c cs) (hmark : IsQuote mark)
    (rest : List Char) : (cs ++ rest).head? ≠ some mark := by
  have hslash : '\\' ≠ mark := by
    rintro rfl
    rcases hmark with h | h <;> exact absurd h (by decide)
  cases h with
  | plain hmark _ _ => simpa using hmark
  | _ => simpa using hslash

/-- what stands between the quotes ends in front of the quote in use -/
theorem flatMap_escapeChar_inj {mark : Char} (hmark : IsQuote mark) {cs cs' rest rest' : List Char}
    (heq : cs.flatMap (escapeChar mark) ++ mark :: rest = cs'.flatMap (escapeChar mark) ++ mark :: rest') :
    cs = cs' ∧ rest = rest' := by
  induction cs generalizing cs' with
  | nil =>
    cases cs' with
    | nil => exact ⟨rfl, (List.cons.inj heq).2⟩
    | cons d ds =>
      rw [List.flatMap_cons, List.append_assoc] at heq
      exact absurd (congrArg List.head? heq).symm ((escaped_escapeChar mark d).head?_append hmark _)
  | cons c cs ih =>
    cases cs' with
    | nil =>
      rw [List.flatMap_cons, List.append_assoc] at heq
      exact absurd (congrArg List.head? heq) ((escaped_escapeChar mark c).head?_append hmark _)
    | cons d ds =>
      rw [List.flatMap_cons, List.flatMap_cons, List.append_assoc, List.append_assoc] at heq
      have hread := congrArg unescape? heq
      rw [(escaped_escapeChar mark c).unescape?_append hmark, (escaped_escapeChar mark d).unescape?_append hmark] at hread
      obtain ⟨rfl, htail⟩ := Prod.mk.inj (Option.some.inj hread)
      obtain ⟨rfl, hrest⟩ := ih htail
      exact ⟨rfl, hrest⟩

/-- **A quoted text is found again** in front of any other. -/
theorem quotedChars_append_inj {cs cs' rest rest' : List Char}
    (heq : quotedChars cs ++ rest = quotedChars cs' ++ rest') : cs = cs' ∧ rest = rest' := by
  have hshape : ∀ cs rest, quotedChars cs ++ rest =
      quoteMark cs :: (cs.flatMap (escapeChar (quoteMark cs)) ++ quoteMark cs :: rest) := by
    intro cs rest
    simp [quotedChars]
  rw [hshape, hshape] at heq
  obtain ⟨hmark, hbody⟩ := List.cons.inj heq
  rw [← hmark] at hbody
  exact flatMap_escapeChar_inj (isQuote_quoteMark cs) hbody

/-! ## Printable texts -/

def Printable (s : String) : Prop := s.toList.all isPrintable = true

instance (s : String) : Decidable (Printable s) := inferInstanceAs (Decidable (s.toList.all isPrintable = true))

theorem printable_append {s t : String} : Printable (s ++ t) ↔ Printable s ∧ Printable t := by
  rw [Printable, String.toList_append, List.all_append, Bool.and_eq_true]
  exact Iff.rfl

/-- line breaks are not printable -/
theorem isPrintable_of_isLineBreak {c : Char} (h : isLineBreak c = true) : isPrintable c = false := by
  have hall : ∀ n ∈ [0x0A, 0x0B, 0x0C, 0x0D, 0x1C, 0x1D, 0x1E, 0x85, 0x2028, 0x2029],
      isPrintable (Char.ofNat n) = false := by decide +kernel
  have hchar := hall c.toNat (List.contains_iff_mem.1 h)
  rwa [Char.ofNat_toNat] at hchar

/-- **Printable characters break no line.** -/
theorem Printable.unbroken {s : String} (h : Printable s) : Unbroken s.toList := by
  intro c hc
  by_contra hbreak
  have hunprintable := isPrintable_of_isLineBreak (Bool.eq_true_of_not_eq_false hbreak)
  rw [List.all_eq_true.1 h c hc] at hunprintable
  cases hunprintable

theorem isPrintable_of_isNumeral {c : Char} (h : isNumeral c = true) : isPrintable c = true := by
  simp only [isNumeral, Bool.or_eq_true, Char.isDigit_iff_toNat, decide_eq_true_eq] at h
  rcases h with ⟨hlow, hhigh⟩ | rfl
  · have hlow : 48 ≤ c.toNat := hlow
    have hhigh : c.toNat ≤ 57 := hhigh
    rw [isPrintable, if_pos (by omega), Bool.and_eq_true, decide_eq_true_eq, decide_eq_true_eq]
    omega
  · decide

theorem printable_toString (i : ℤ) : Printable (toString i) :=
  List.all_eq_true.2 fun c hc => isPrintable_of_isNumeral (isNumeral_toString i c hc)

theorem isPrintable_hexDigit {n : ℕ} (h : n < 16) : isPrintable (hexDigit n) = true := by
  have hall : ∀ m < 16, isPrintable (hexDigit m) = true := by decide
  exact hall n h

theorem all_isPrintable_hexDigits (width n : ℕ) : (hexDigits width n).all isPrintable = true := by
  induction width generalizing n with
  | zero => rfl
  | succ width ih =>
    have hlast := isPrintable_hexDigit (Nat.mod_lt n (by decide : 16 > 0))
    simp [hexDigits, ih, hlast]

theorem Escaped.all_isPrintable {mark c : Char} {cs : List Char} (h : Escaped mark c cs) (hmark : IsQuote mark) :
    cs.all isPrintable = true := by
  cases h with
  | slash h =>
    rcases h with rfl | rfl
    · rcases hmark with rfl | rfl <;> decide
    · decide
  | letter h =>
    simp only [List.mem_cons, Prod.mk.injEq, List.not_mem_nil, or_false] at h
    rcases h with ⟨rfl, rfl⟩ | ⟨rfl, rfl⟩ | ⟨rfl, rfl⟩ <;> decide
  | plain _ _ hprint => simp [hprint]
  | code h _ =>
    have hdigits := all_isPrintable_hexDigits
    simp only [List.mem_cons, Prod.mk.injEq, List.not_mem_nil, or_false] at h
    rcases h with ⟨rfl, rfl⟩ | ⟨rfl, rfl⟩ | ⟨rfl, rfl⟩ <;> simp +decide [hdigits]

/-- **Quoting leaves printable characters only.** -/
theorem printable_quoted (s : String) : Printable (quoted s) := by
  have hquote := isQuote_quoteMark s.toList
  have hmark : isPrintable (quoteMark s.toList) = true := by rcases hquote with h | h <;> rw [h] <;> decide
  have hbody : (s.toList.flatMap (escapeChar (quoteMark s.toList))).all isPrintable = true := by
    rw [List.all_flatMap, List.all_eq_true]
    exact fun c _ => (escaped_escapeChar _ c).all_isPrintable hquote
  rw [Printable, quoted, String.toList_ofList, quotedChars]
  simp only [List.cons_append, List.all_cons, List.all_append, hmark, hbody, List.all_nil, Bool.and_self]

end LetFront.Text
