/-
Reading programs from a token stream, with one token of lookahead and without going back. A statement is a let
statement, and of that the value is skipped through its semicolon.

A statement that cannot be read does not end the reading: its error is kept, the tokens up to the next place where a
statement may begin are dropped, and reading goes on. The stream that an attempt leaves behind is kept whether the
attempt succeeds or fails.

Main statements: `Parser.size_round_lt`, every round of the loop makes the stream smaller, although neither an attempt
nor the recovery after it does so alone; `Parser.programFrom_eq`, the loop is its rounds one after the other.
-/
import LetFront.Program.Node
import LetFront.Token.Scanner
import LetFront.Token.Stream

namespace LetFront

/-- an action on a stream over `σ` that may run into a fault -/
abbrev Parser (σ α : Type) := ExceptT ParseFault (StateM (TokenStream σ)) α

namespace Parser

variable {σ α β : Type}

/-- the outcome of an action and the stream it leaves -/
def runOn (p : Parser σ α) (s : TokenStream σ) : Except ParseFault α × TokenStream σ := p s

theorem runOn_bind (p : Parser σ α) (f : α → Parser σ β) (s : TokenStream σ) :
    (p >>= f).runOn s =
      match p.runOn s with
      | (.ok a, s') => (f a).runOn s'
      | (.error e, s') => (.error e, s') := by
  change (ExceptT.bind p f) s = _
  simp only [ExceptT.bind, ExceptT.mk, runOn, bind, StateT.bind]
  cases p s with
  | mk r s' => cases r <;> rfl

theorem runOn_pure (a : α) (s : TokenStream σ) : (pure a : Parser σ α).runOn s = (.ok a, s) := rfl

theorem runOn_throw (f : ParseFault) (s : TokenStream σ) : (throw f : Parser σ α).runOn s = (.error f, s) := rfl

variable [TokenSource σ]

/-- look at the token at the front -/
def peek : Parser σ Token := fun s =>
  match s.next? with
  | none => (.error .endOfInput, s)
  | some (t, s') => (.ok t, s'.hold t)

/-- take the token at the front -/
def advance : Parser σ Token := fun s =>
  match s.next? with
  | none => (.error .endOfInput, s)
  | some (t, s') => (.ok t, s')

/-- whether the token at the front is of one of the kinds -/
def check (kinds : List Kind) : Parser σ Bool := do
  return kinds.contains (← peek).kind

/-- take the token at the front if it is of the kind, and leave it there otherwise -/
def expect (kind : Kind) : Parser σ Token := do
  let t ← peek
  if t.kind = kind then advance else throw (.mismatch kind t)

/-- whether the token for the end is next, or nothing at all -/
def atEnd : Parser σ Bool := do
  try check [.endOfInput] catch _ => return true

/-- drop the tokens of a value and the semicolon that ends it -/
def skipValueFrom (s : TokenStream σ) : Except ParseFault Unit × TokenStream σ :=
  match _h : s.next? with
  | none => (.error .endOfInput, s)
  | some (t, s') =>
    if t.kind = .semicolon then (.ok (), s')
    else if t.kind = .endOfInput then (.error .endOfInput, s'.hold t)
    else skipValueFrom s'
termination_by s.size
decreasing_by exact TokenStream.size_next?_lt _h

def skipValue : Parser σ Unit := fun s => skipValueFrom s

/-- read a let statement -/
def letStatement : Parser σ Binding := do
  let keyword ← expect .letWord
  let name ← expect .identifier
  let _ ← expect .assign
  skipValue
  return ⟨keyword, name⟩

/-- read a statement -/
def statement : Parser σ Binding := do
  let t ← peek
  if t.kind = .letWord then letStatement else throw (.unexpected t)

/-- drop tokens through the next semicolon, but no token that begins a statement and not the one for the end -/
def synchronizeFrom (s : TokenStream σ) : TokenStream σ :=
  match _h : s.next? with
  | none => s
  | some (t, s') =>
    if t.kind = .endOfInput ∨ t.kind = .letWord then s'.hold t
    else if t.kind = .semicolon then s'
    else synchronizeFrom s'
termination_by s.size
decreasing_by exact TokenStream.size_next?_lt _h

def synchronize : Parser σ Unit := modify synchronizeFrom

/-- attempt a statement, and recover if that fails -/
def round (s : TokenStream σ) : Except ParseFault Binding × TokenStream σ :=
  match statement.runOn s with
  | (.ok b, s') => (.ok b, s')
  | (.error f, s') => (.error f, synchronizeFrom s')

/-! ## Every round makes progress -/

/-- an action that never leaves a larger stream than it found -/
def Shrinks (p : Parser σ α) : Prop := ∀ s, (p.runOn s).2.size ≤ s.size

theorem runOn_peek (s : TokenStream σ) :
    (peek : Parser σ Token).runOn s =
      match s.next? with
      | none => (.error .endOfInput, s)
      | some (t, s') => (.ok t, s'.hold t) := rfl

theorem runOn_advance (s : TokenStream σ) :
    (advance : Parser σ Token).runOn s =
      match s.next? with
      | none => (.error .endOfInput, s)
      | some (t, s') => (.ok t, s') := rfl

theorem Shrinks.bind {p : Parser σ α} {f : α → Parser σ β} (hp : Shrinks p) (hf : ∀ a, Shrinks (f a)) :
    Shrinks (p >>= f) := by
  intro s
  have h := hp s
  rw [runOn_bind]
  split
  · next a s' hr =>
    rw [hr] at h
    exact Nat.le_trans (hf a s') h
  · next e s' hr =>
    rw [hr] at h
    exact h

theorem shrinks_pure (a : α) : Shrinks (pure a : Parser σ α) := fun _ => Nat.le_refl _

theorem shrinks_throw (f : ParseFault) : Shrinks (throw f : Parser σ α) := fun _ => Nat.le_refl _

theorem shrinks_peek : Shrinks (peek : Parser σ Token) := by
  intro s
  rw [runOn_peek]
  split
  · exact Nat.le_refl _
  · next t s' h =>
    have hlt := TokenStream.size_next?_lt h
    have hh := TokenStream.size_hold (u := t) h
    change (s'.hold t).size ≤ _
    omega

theorem shrinks_advance : Shrinks (advance : Parser σ Token) := by
  intro s
  rw [runOn_advance]
  split
  · exact Nat.le_refl _
  · next t s' h => exact Nat.le_of_lt (TokenStream.size_next?_lt h)

theorem shrinks_expect (kind : Kind) : Shrinks (expect kind : Parser σ Token) := by
  refine shrinks_peek.bind fun t => ?_
  split
  · exact shrinks_advance
  · exact shrinks_throw _

theorem size_skipValueFrom_le (s : TokenStream σ) : (skipValueFrom s).2.size ≤ s.size := by
  fun_induction skipValueFrom s with
  | case1 => exact Nat.le_refl _
  | case2 s t s' h _ => exact Nat.le_of_lt (TokenStream.size_next?_lt h)
  | case3 s t s' h _ _ =>
    have hlt := TokenStream.size_next?_lt h
    have hh := TokenStream.size_hold (u := t) h
    change (s'.hold t).size ≤ _
    omega
  | case4 s t s' h _ _ ih =>
    have hlt := TokenStream.size_next?_lt h
    omega

theorem shrinks_skipValue : Shrinks (skipValue : Parser σ Unit) := size_skipValueFrom_le

theorem size_synchronizeFrom_le (s : TokenStream σ) : (synchronizeFrom s).size ≤ s.size := by
  fun_induction synchronizeFrom s with
  | case1 => exact Nat.le_refl _
  | case2 s t s' h _ =>
    have hlt := TokenStream.size_next?_lt h
    have hh := TokenStream.size_hold (u := t) h
    omega
  | case3 s t s' h _ _ => exact Nat.le_of_lt (TokenStream.size_next?_lt h)
  | case4 s t s' h _ _ ih =>
    have hlt := TokenStream.size_next?_lt h
    omega

/-- a let statement that finds its keyword takes it, so the stream gets smaller whatever follows -/
theorem size_letStatement_lt (t : Token) (s : TokenStream σ) (ht : t.kind = .letWord) (hs : s.lookahead = none) :
    (letStatement.runOn (s.hold t)).2.size ≤ s.size := by
  have hkey : (expect .letWord : Parser σ Token).runOn (s.hold t) = (.ok t, s) := by
    unfold expect
    rw [runOn_bind, runOn_peek, TokenStream.next?_hold]
    simp only [ht, ↓reduceIte]
    rw [runOn_advance, TokenStream.next?_hold]
    simp [← hs]
  unfold letStatement
  rw [runOn_bind, hkey]
  exact (Shrinks.bind (shrinks_expect _) fun _ => Shrinks.bind (shrinks_expect _) fun _ =>
    Shrinks.bind shrinks_skipValue fun _ => shrinks_pure _) s

theorem size_round_lt {s s' : TokenStream σ} {t : Token} (h : s.next? = some (t, s')) (ht : t.kind ≠ .endOfInput) :
    (round (s'.hold t)).2.size < s.size := by
  have hlt := TokenStream.size_next?_lt h
  have hs := TokenStream.lookahead_of_next? h
  have hle : (round (s'.hold t)).2.size ≤ s'.size := by
    have hst : statement.runOn (s'.hold t) =
        (if t.kind = .letWord then letStatement else throw (.unexpected t) : Parser σ Binding).runOn (s'.hold t) := by
      unfold statement
      rw [runOn_bind, runOn_peek, TokenStream.next?_hold]
      rfl
    unfold round
    rw [hst]
    by_cases hk : t.kind = .letWord
    · have hle := size_letStatement_lt t s' hk hs
      rw [if_pos hk]
      split
      · next hr => rw [hr] at hle; exact hle
      · next hr =>
        rw [hr] at hle
        exact Nat.le_trans (size_synchronizeFrom_le _) hle
    · rw [if_neg hk, runOn_throw]
      change (synchronizeFrom (s'.hold t)).size ≤ s'.size
      rw [synchronizeFrom.eq_def, TokenStream.next?_hold]
      simp only [ht, hk, or_self, ↓reduceIte]
      have hsrc : (⟨none, s'.source⟩ : TokenStream σ) = s' := by rw [← hs]
      rw [hsrc]
      split
      · exact Nat.le_refl _
      · exact size_synchronizeFrom_le _
  omega

/-! ## Whole programs -/

/-- read statements to the end -/
def programFrom (s : TokenStream σ) : Program × TokenStream σ :=
  match h : s.next? with
  | none => (.empty, s)
  | some (t, s') =>
    if ht : t.kind = .endOfInput then (.empty, s'.hold t)
    else
      have _hlt := size_round_lt h ht
      match _hr : round (s'.hold t) with
      | (.ok b, s'') =>
        let (p, rest) := programFrom s''
        ({ p with statements := b :: p.statements }, rest)
      | (.error f, s'') =>
        let (p, rest) := programFrom s''
        ({ p with errors := f.error :: p.errors }, rest)
termination_by s.size
decreasing_by all_goals (rw [_hr] at _hlt; exact _hlt)

/-- the loop, a round at a time -/
theorem programFrom_eq (s : TokenStream σ) :
    programFrom s =
      match s.next? with
      | none => (.empty, s)
      | some (t, s') =>
        if t.kind = .endOfInput then (.empty, s'.hold t)
        else
          match round (s'.hold t) with
          | (.ok b, s'') =>
            ({ (programFrom s'').1 with statements := b :: (programFrom s'').1.statements }, (programFrom s'').2)
          | (.error f, s'') =>
            ({ (programFrom s'').1 with errors := f.error :: (programFrom s'').1.errors }, (programFrom s'').2) := by
  rw [programFrom.eq_def]
  split
  · next h =>
    conv => rhs; rw [h]
  · next t s' h =>
    conv => rhs; rw [h]
    by_cases ht : t.kind = .endOfInput
    · simp [ht]
    · simp only [ht, ↓reduceDIte, ↓reduceIte]
      split
      · next hr => conv => rhs; rw [hr]
      · next hr => conv => rhs; rw [hr]

def program : Parser σ Program := fun s => let (p, s') := programFrom s; (.ok p, s')

end Parser

namespace Program

/-- read the tokens of a source to its end -/
def ofSource {σ : Type} [TokenSource σ] (source : σ) : Program := (Parser.programFrom (.ofSource source)).1

/-- the program that a list of tokens spells -/
def ofTokens (ts : List Token) : Program := ofSource ts

/-- the program that a text spells, its tokens read as they are needed -/
def ofString (source : String) : Program := ofSource (Scanner.ofString source)

end Program

end LetFront
