/-
What a token stream still has to give: the token it holds, if any, and then every token of its source. A parser can see
nothing else of a stream, so its actions are described by the tokens that are pending before and after them, whatever
the source is.

`Yields p ts r ts'`: on a stream with `ts` pending, the action `p` ends in `r` and leaves `ts'` pending.

Main statements: `next?_of_pending_cons`, a stream gives its pending tokens in order; `Yields.bind_ok`, actions are run
one after the other; `pending_synchronizeFrom`, what recovery drops.
-/
import Mathlib.Tactic
import LetFront.Program.Parser

namespace LetFront

namespace TokenStream

variable {σ : Type} [TokenSource σ]

/-- the tokens a stream still has to give -/
def pending (s : TokenStream σ) : List Token := s.lookahead.toList ++ (TokenSource.drain s.source).1

theorem pending_ofSource (source : σ) : (ofSource source).pending = (TokenSource.drain source).1 := rfl

theorem pending_hold {s : TokenStream σ} (t : Token) (h : s.lookahead = none) :
    (s.hold t).pending = t :: s.pending := by
  simp [pending, hold, h]

theorem next?_of_pending_nil {s : TokenStream σ} (h : s.pending = []) : s.next? = none := by
  simp only [pending, List.append_eq_nil_iff, Option.toList_eq_nil_iff] at h
  obtain ⟨hl, hd⟩ := h
  simp only [next?, hl, Option.map_eq_none_iff]
  cases hn : TokenSource.next? s.source with
  | none => rfl
  | some r => rw [TokenSource.drain_of_some hn] at hd; cases hd

theorem next?_of_pending_cons {s : TokenStream σ} {t : Token} {ts : List Token} (h : s.pending = t :: ts) :
    ∃ s', s.next? = some (t, s') ∧ s'.pending = ts ∧ s'.lookahead = none := by
  cases hl : s.lookahead with
  | some u =>
    simp only [pending, hl, Option.toList_some, List.singleton_append, List.cons.injEq] at h
    obtain ⟨rfl, h⟩ := h
    exact ⟨⟨none, s.source⟩, by simp [next?, hl], by simpa [pending] using h, rfl⟩
  | none =>
    simp only [pending, hl, Option.toList_none, List.nil_append] at h
    cases hn : TokenSource.next? s.source with
    | none => rw [TokenSource.drain_of_none hn] at h; cases h
    | some r =>
      rw [TokenSource.drain_of_some hn, List.cons.injEq] at h
      obtain ⟨rfl, h⟩ := h
      exact ⟨⟨none, r.2⟩, by simp [next?, hl, hn], by simpa [pending] using h, rfl⟩

end TokenStream

/-- nothing follows, or the token for the end does -/
def AtEnd (ts : List Token) : Prop := ∀ t ∈ ts.head?, t.kind = .endOfInput

theorem atEnd_singleton {t : Token} (h : t.kind = .endOfInput) : AtEnd [t] := by
  intro u hu
  cases hu
  exact h

/-- a statement may begin here, or nothing is left -/
def AtBoundary (ts : List Token) : Prop := ∀ t ∈ ts.head?, t.kind = .endOfInput ∨ t.kind = .letWord

/-- a token in the middle of what recovery drops -/
def Token.Plain (t : Token) : Prop := t.kind ≠ .semicolon ∧ t.kind ≠ .letWord ∧ t.kind ≠ .endOfInput

/-- what recovery drops in front of `after`: the tokens through the first semicolon, or those up to a boundary -/
inductive Dropped : List Token → List Token → Prop
  | through {ds : List Token} {s : Token} (after : List Token) (hd : ∀ t ∈ ds, t.Plain) (hs : s.kind = .semicolon) :
      Dropped (ds ++ [s]) after
  | upTo {ds after : List Token} (hd : ∀ t ∈ ds, t.Plain) (ha : AtBoundary after) : Dropped ds after

namespace Parser

variable {σ α β : Type} [TokenSource σ]

/-- the action, on any stream with `ts` pending, ends in `r` and leaves `ts'` pending -/
def Yields (p : Parser σ α) (ts : List Token) (r : Except ParseFault α) (ts' : List Token) : Prop :=
  ∀ s : TokenStream σ, s.pending = ts → (p.runOn s).1 = r ∧ (p.runOn s).2.pending = ts'

theorem Yields.bind_ok {p : Parser σ α} {f : α → Parser σ β} {a : α} {r : Except ParseFault β}
    {ts ts' ts'' : List Token} (hp : Yields p ts (.ok a) ts') (hf : Yields (f a) ts' r ts'') :
    Yields (p >>= f) ts r ts'' := by
  intro s hs
  obtain ⟨h1, h2⟩ := hp s hs
  have hrun : p.runOn s = (.ok a, (p.runOn s).2) := Prod.ext h1 rfl
  rw [runOn_bind, hrun]
  exact hf _ h2

theorem Yields.bind_error {p : Parser σ α} {f : α → Parser σ β} {e : ParseFault} {ts ts' : List Token}
    (hp : Yields p ts (.error e) ts') : Yields (p >>= f) ts (.error e) ts' := by
  intro s hs
  obtain ⟨h1, h2⟩ := hp s hs
  have hrun : p.runOn s = (.error e, (p.runOn s).2) := Prod.ext h1 rfl
  rw [runOn_bind, hrun]
  exact ⟨rfl, h2⟩

theorem yields_pure (a : α) (ts : List Token) : Yields (pure a : Parser σ α) ts (.ok a) ts := fun _ hs => ⟨rfl, hs⟩

theorem yields_throw (e : ParseFault) (ts : List Token) : Yields (throw e : Parser σ α) ts (.error e) ts :=
  fun _ hs => ⟨rfl, hs⟩

/-! ## Looking and taking -/

theorem yields_peek (t : Token) (ts : List Token) : Yields (peek : Parser σ Token) (t :: ts) (.ok t) (t :: ts) := by
  intro s hs
  obtain ⟨s', hn, hp, hl⟩ := TokenStream.next?_of_pending_cons hs
  rw [runOn_peek, hn]
  exact ⟨rfl, by rw [TokenStream.pending_hold t hl, hp]⟩

theorem yields_peek_nil : Yields (peek : Parser σ Token) [] (.error .endOfInput) [] := by
  intro s hs
  rw [runOn_peek, TokenStream.next?_of_pending_nil hs]
  exact ⟨rfl, hs⟩

theorem yields_advance (t : Token) (ts : List Token) : Yields (advance : Parser σ Token) (t :: ts) (.ok t) ts := by
  intro s hs
  obtain ⟨s', hn, hp, -⟩ := TokenStream.next?_of_pending_cons hs
  rw [runOn_advance, hn]
  exact ⟨rfl, hp⟩

theorem yields_expect {k : Kind} {t : Token} (ts : List Token) (h : t.kind = k) :
    Yields (expect k : Parser σ Token) (t :: ts) (.ok t) ts := by
  refine (yields_peek t ts).bind_ok ?_
  rw [if_pos h]
  exact yields_advance t ts

theorem yields_expect_mismatch {k : Kind} {t : Token} (ts : List Token) (h : t.kind ≠ k) :
    Yields (expect k : Parser σ Token) (t :: ts) (.error (.mismatch k t)) (t :: ts) := by
  refine (yields_peek t ts).bind_ok ?_
  rw [if_neg h]
  exact yields_throw _ _

theorem yields_expect_nil (k : Kind) : Yields (expect k : Parser σ Token) [] (.error .endOfInput) [] :=
  yields_peek_nil.bind_error

/-! ## Skipping a value -/

theorem runOn_skipValue (s : TokenStream σ) : (skipValue : Parser σ Unit).runOn s = skipValueFrom s := rfl

theorem skipValueFrom_of_some {s s' : TokenStream σ} {t : Token} (h : s.next? = some (t, s')) :
    skipValueFrom s =
      if t.kind = .semicolon then (.ok (), s')
      else if t.kind = .endOfInput then (.error .endOfInput, s'.hold t)
      else skipValueFrom s' := by
  rw [skipValueFrom.eq_def]
  split
  · next h' => rw [h] at h'; cases h'
  · next h' => rw [h] at h'; cases h'; rfl

/-- the tokens of a value are passed over -/
theorem yields_skipValue_append {v ts ts' : List Token} {r : Except ParseFault Unit}
    (hv : ∀ t ∈ v, t.kind ≠ .semicolon ∧ t.kind ≠ .endOfInput) (h : Yields (skipValue : Parser σ Unit) ts r ts') :
    Yields (skipValue : Parser σ Unit) (v ++ ts) r ts' := by
  induction v with
  | nil => exact h
  | cons t v ih =>
    intro s hp
    obtain ⟨s', hn, hp', -⟩ := TokenStream.next?_of_pending_cons hp
    obtain ⟨hsemi, hend⟩ := hv t List.mem_cons_self
    rw [runOn_skipValue, skipValueFrom_of_some hn, if_neg hsemi, if_neg hend]
    exact ih (fun u hu => hv u (List.mem_cons_of_mem t hu)) s' hp'

theorem yields_skipValue_semicolon {s : Token} (ts : List Token) (hs : s.kind = .semicolon) :
    Yields (skipValue : Parser σ Unit) (s :: ts) (.ok ()) ts := by
  intro st hp
  obtain ⟨s', hn, hp', -⟩ := TokenStream.next?_of_pending_cons hp
  rw [runOn_skipValue, skipValueFrom_of_some hn, if_pos hs]
  exact ⟨rfl, hp'⟩

theorem yields_skipValue_atEnd {ts : List Token} (he : AtEnd ts) :
    Yields (skipValue : Parser σ Unit) ts (.error .endOfInput) ts := by
  intro st hp
  rw [runOn_skipValue]
  cases ts with
  | nil =>
    rw [skipValueFrom.eq_def]
    split
    · exact ⟨rfl, hp⟩
    · next hn => rw [TokenStream.next?_of_pending_nil hp] at hn; cases hn
  | cons t ts =>
    obtain ⟨s', hn, hp', hl⟩ := TokenStream.next?_of_pending_cons hp
    have hk : t.kind = .endOfInput := he t rfl
    rw [skipValueFrom_of_some hn, if_neg (by rw [hk]; decide), if_pos hk]
    exact ⟨rfl, by rw [TokenStream.pending_hold t hl, hp']⟩

/-! ## Recovery -/

theorem synchronizeFrom_of_some {s s' : TokenStream σ} {t : Token} (h : s.next? = some (t, s')) :
    synchronizeFrom s =
      if t.kind = .endOfInput ∨ t.kind = .letWord then s'.hold t
      else if t.kind = .semicolon then s'
      else synchronizeFrom s' := by
  rw [synchronizeFrom.eq_def]
  split
  · next h' => rw [h] at h'; cases h'
  · next h' => rw [h] at h'; cases h'; rfl

/-- the tokens in the middle are passed over -/
theorem synchronizeFrom_append {ds ts : List Token} (hd : ∀ t ∈ ds, t.Plain) (s : TokenStream σ)
    (hp : s.pending = ds ++ ts) : ∃ s' : TokenStream σ, s'.pending = ts ∧ synchronizeFrom s = synchronizeFrom s' := by
  induction ds generalizing s with
  | nil => exact ⟨s, hp, rfl⟩
  | cons t ds ih =>
    obtain ⟨s', hn, hp', -⟩ := TokenStream.next?_of_pending_cons hp
    obtain ⟨hsemi, hlet, hend⟩ := hd t List.mem_cons_self
    rw [synchronizeFrom_of_some hn, if_neg (not_or.2 ⟨hend, hlet⟩), if_neg hsemi]
    exact ih (fun u hu => hd u (List.mem_cons_of_mem t hu)) s' hp'

theorem pending_synchronizeFrom_boundary {s : TokenStream σ} (h : AtBoundary s.pending) :
    (synchronizeFrom s).pending = s.pending := by
  cases hp : s.pending with
  | nil =>
    rw [synchronizeFrom.eq_def]
    split
    · exact hp
    · next hn => rw [TokenStream.next?_of_pending_nil hp] at hn; cases hn
  | cons t ts =>
    obtain ⟨s', hn, hp', hl⟩ := TokenStream.next?_of_pending_cons hp
    rw [synchronizeFrom_of_some hn, if_pos (h t (by rw [hp]; rfl)), TokenStream.pending_hold t hl, hp']

/-- **Recovery.** It drops what it should and leaves the rest. -/
theorem pending_synchronizeFrom {ds after : List Token} (hd : Dropped ds after) (s : TokenStream σ)
    (hp : s.pending = ds ++ after) : (synchronizeFrom s).pending = after := by
  cases hd with
  | through _ hplain hs =>
    rw [List.append_assoc] at hp
    obtain ⟨s', hp', hsync⟩ := synchronizeFrom_append hplain s hp
    obtain ⟨s'', hn, hp'', -⟩ := TokenStream.next?_of_pending_cons hp'
    rw [hsync, synchronizeFrom_of_some hn, if_neg (by rw [hs]; decide), if_pos hs]
    exact hp''
  | upTo hplain hb =>
    obtain ⟨s', hp', hsync⟩ := synchronizeFrom_append hplain s hp
    rw [hsync, pending_synchronizeFrom_boundary (hp'.symm ▸ hb), hp']

end Parser

end LetFront
