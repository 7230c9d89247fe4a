/-
What the calls on a parser do to the tokens that are pending. However a parser is used, its pending tokens are the end
of those it began with: tokens are taken from the front, in order, and none is lost or comes again. A stream looks at
most one token ahead, so no more than that one was pulled beyond those that were taken.

Main statements: `Call.effect`, what each call does to the pending tokens of any stream; `pending_afterCalls_suffix`,
what is left after calls; `calls_conserve`, both for a parser on a token list.
-/
import LetFront.Program.Call
import LetFront.Proofs.Program.Division

namespace LetFront

variable {σ α β : Type} [TokenSource σ]

namespace TokenStream

theorem pending_of_next?_none {s : TokenStream σ} (h : s.next? = none) : s.pending = [] := by
  cases hp : s.pending with
  | nil => rfl
  | cons t ts =>
    obtain ⟨s', hn, -⟩ := next?_of_pending_cons hp
    rw [h] at hn
    cases hn

theorem pending_of_next?_some {s s' : TokenStream σ} {t : Token} (h : s.next? = some (t, s')) :
    s.pending = t :: s'.pending := by
  cases hp : s.pending with
  | nil =>
    rw [next?_of_pending_nil hp] at h
    cases h
  | cons u us =>
    obtain ⟨s'', hn, hp', -⟩ := next?_of_pending_cons hp
    obtain ⟨rfl, rfl⟩ := Prod.mk.inj (Option.some.inj (h.symm.trans hn))
    rw [hp']

theorem pending_hold_of_next? {s s' : TokenStream σ} {t : Token} (h : s.next? = some (t, s')) :
    (s'.hold t).pending = s.pending := by
  rw [pending_hold t (lookahead_of_next? h), pending_of_next?_some h]

theorem pending_list (s : TokenStream (List Token)) : s.pending = s.lookahead.toList ++ s.source := by
  rw [pending, TokenSource.drain_list]

end TokenStream

/-! ## Taking tokens from the front -/

/-- What a call does: with `ts` pending before it, it ends in `r` and leaves `ts'` pending. Looking takes nothing. A
program takes all that stands in front of the end, and recovery nothing in front of a boundary, and else through the
first semicolon or up to a boundary. -/
def Call.Effect (ts : List Token) (r : Except ParseFault Answer) (ts' : List Token) : Call → Prop
  | .peek => ts' = ts
  | .check _ => ts' = ts
  | .atEnd => ts' = ts
  | .advance => (∃ t, ts = t :: ts' ∧ r = .ok (.token t)) ∨ ts = [] ∧ ts' = [] ∧ r = .error .endOfInput
  | .expect k => (∃ t, ts = t :: ts' ∧ t.kind = k ∧ r = .ok (.token t)) ∨ ∃ f, ts' = ts ∧ r = .error f
  | .statement => ts' <:+ ts ∧ ∀ u, r = .error (.unexpected u) → ts' = ts
  | .letStatement => ts' <:+ ts
  | .program => ts' = back ts
  | .synchronize =>
    ts' = ts ∧ AtBoundary ts ∨
      ∃ ds, ds ≠ [] ∧ ts = ds ++ ts' ∧ (∀ t ∈ ds, t.kind ≠ .endOfInput ∧ t.kind ≠ .letWord) ∧
        ((∃ lead s, ds = lead ++ [s] ∧ s.kind = .semicolon ∧ ∀ t ∈ lead, t.kind ≠ .semicolon) ∨
          (∀ t ∈ ds, t.kind ≠ .semicolon) ∧ AtBoundary ts')

namespace Parser

omit [TokenSource σ] in
theorem runOn_tryCatch (p : Parser σ α) (f : ParseFault → Parser σ α) (s : TokenStream σ) :
    (tryCatch p f).runOn s =
      match p.runOn s with
      | (.ok a, s') => (.ok a, s')
      | (.error e, s') => (f e).runOn s' := by
  change (ExceptT.tryCatch p f) s = _
  simp only [ExceptT.tryCatch, ExceptT.mk, runOn, bind, StateT.bind]
  cases p s with
  | mk r s' => cases r <;> rfl

/-- an action that takes tokens from the front and never finds that a statement cannot begin where it is -/
def Takes (p : Parser σ α) : Prop :=
  ∀ s : TokenStream σ, (p.runOn s).2.pending <:+ s.pending ∧ ∀ u, (p.runOn s).1 ≠ .error (.unexpected u)

theorem Takes.bind {p : Parser σ α} {f : α → Parser σ β} (hp : Takes p) (hf : ∀ a, Takes (f a)) :
    Takes (p >>= f) := by
  intro s
  obtain ⟨hsuffix, hfault⟩ := hp s
  rw [runOn_bind]
  split
  · next a s' hr =>
    rw [hr] at hsuffix
    exact ⟨(hf a s').1.trans hsuffix, (hf a s').2⟩
  · next e s' hr =>
    rw [hr] at hsuffix hfault
    exact ⟨hsuffix, fun u he => hfault u (congrArg Except.error (Except.error.inj he))⟩

theorem takes_pure (a : α) : Takes (pure a : Parser σ α) := fun s => ⟨List.suffix_refl s.pending, fun _ h => by cases h⟩

theorem pending_peek (s : TokenStream σ) : ((peek : Parser σ Token).runOn s).2.pending = s.pending := by
  rw [runOn_peek]
  split
  · rfl
  · next t s' h => exact TokenStream.pending_hold_of_next? h

theorem runOn_check (kinds : List Kind) (s : TokenStream σ) :
    (check kinds : Parser σ Bool).runOn s =
      match s.next? with
      | none => (.error .endOfInput, s)
      | some (t, s') => (.ok (kinds.contains t.kind), s'.hold t) := by
  unfold check
  rw [runOn_bind, runOn_peek]
  cases s.next? <;> rfl

theorem runOn_atEnd (s : TokenStream σ) :
    (atEnd : Parser σ Bool).runOn s =
      match s.next? with
      | none => (.ok true, s)
      | some (t, s') => (.ok ([Kind.endOfInput].contains t.kind), s'.hold t) := by
  unfold atEnd
  rw [runOn_bind, runOn_tryCatch, runOn_bind, runOn_check]
  cases s.next? <;> rfl

theorem runOn_expect (k : Kind) (s : TokenStream σ) :
    (expect k : Parser σ Token).runOn s =
      match s.next? with
      | none => (.error .endOfInput, s)
      | some (t, s') => if t.kind = k then (.ok t, s') else (.error (.mismatch k t), s'.hold t) := by
  unfold expect
  rw [runOn_bind, runOn_peek]
  cases h : s.next? with
  | none => rfl
  | some r =>
    obtain ⟨t, s'⟩ := r
    have hs : (⟨none, s'.source⟩ : TokenStream σ) = s' := by rw [← TokenStream.lookahead_of_next? h]
    simp only
    split
    · rw [runOn_advance, TokenStream.next?_hold, hs]
    · rfl

theorem takes_expect (k : Kind) : Takes (expect k : Parser σ Token) := by
  intro s
  rw [runOn_expect]
  split
  · exact ⟨List.suffix_refl _, fun _ h => by cases h⟩
  · next t s' h =>
    split
    · exact ⟨TokenStream.pending_of_next?_some h ▸ List.suffix_cons t _, fun _ h => by cases h⟩
    · exact ⟨by rw [TokenStream.pending_hold_of_next? h], fun _ h => by cases h⟩

theorem takes_skipValue : Takes (skipValue : Parser σ Unit) := by
  intro s
  rw [runOn_skipValue]
  fun_induction skipValueFrom s with
  | case1 s => exact ⟨List.suffix_refl _, fun _ h => by cases h⟩
  | case2 s t s' h _ => exact ⟨TokenStream.pending_of_next?_some h ▸ List.suffix_cons t _, fun _ h => by cases h⟩
  | case3 s t s' h _ _ => exact ⟨by rw [TokenStream.pending_hold_of_next? h], fun _ h => by cases h⟩
  | case4 s t s' h _ _ ih =>
    exact ⟨ih.1.trans (TokenStream.pending_of_next?_some h ▸ List.suffix_cons t _), ih.2⟩

theorem takes_letStatement : Takes (letStatement : Parser σ Binding) :=
  (takes_expect _).bind fun _ => (takes_expect _).bind fun _ => (takes_expect _).bind fun _ =>
    takes_skipValue.bind fun _ => takes_pure _

/-- a statement takes tokens from the front, and none if it cannot begin where it is -/
theorem pending_statement (s : TokenStream σ) :
    ((statement : Parser σ Binding).runOn s).2.pending <:+ s.pending ∧
      ∀ u, ((statement : Parser σ Binding).runOn s).1 = .error (.unexpected u) →
        ((statement : Parser σ Binding).runOn s).2.pending = s.pending := by
  unfold statement
  rw [runOn_bind, runOn_peek]
  cases h : s.next? with
  | none => exact ⟨List.suffix_refl _, fun _ _ => rfl⟩
  | some r =>
    obtain ⟨t, s'⟩ := r
    simp only
    rw [← TokenStream.pending_hold_of_next? h]
    split
    · exact ⟨(takes_letStatement _).1, fun u hu => absurd hu ((takes_letStatement _).2 u)⟩
    · exact ⟨List.suffix_refl _, fun _ _ => rfl⟩

/-- recovery drops what it should, whatever is pending -/
theorem exists_dropped_synchronizeFrom (s : TokenStream σ) :
    ∃ ds, s.pending = ds ++ (synchronizeFrom s).pending ∧ Dropped ds (synchronizeFrom s).pending := by
  have hfront : ∀ t ∈ front s.pending, t.kind ≠ .endOfInput := fun t => kind_ne_of_mem_front
  obtain ⟨ds, rest, hds, hd⟩ := exists_dropped hfront (atEnd_back s.pending)
  have hp : s.pending = ds ++ (rest ++ back s.pending) := by
    rw [← List.append_assoc, ← hds, front_append_back]
  refine ⟨ds, ?_⟩
  rw [pending_synchronizeFrom hd s hp]
  exact ⟨hp, hd⟩

/-- a program takes everything in front of the end -/
theorem pending_programFrom (s : TokenStream σ) : (programFrom s).2.pending = back s.pending := by
  have hfront : ∀ t ∈ front s.pending, t.kind ≠ .endOfInput := fun t => kind_ne_of_mem_front
  obtain ⟨ps, hps, hflat⟩ := exists_division hfront (atEnd_back s.pending)
  have hp : s.pending = ps.flatMap Prod.fst ++ back s.pending := by rw [hflat, front_append_back]
  exact (programFrom_of_divides hps (atEnd_back _) (hflat ▸ hfront) s hp).2.2

end Parser

/-! ## Calls -/

namespace Call

omit [TokenSource σ] in
/-- an answer is made of what an action gives back, and nothing else happens -/
theorem runOn_answer (p : Parser σ α) (f : α → Answer) (s : TokenStream σ) :
    (do return f (← p) : Parser σ Answer).runOn s = ((p.runOn s).1.map f, (p.runOn s).2) := by
  rw [Parser.runOn_bind]
  cases p.runOn s with
  | mk r s' => cases r <;> rfl

/-- what is dropped is nothing in front of a boundary, or something that goes through a semicolon or up to a boundary -/
theorem effect_of_dropped {ts ds ts' : List Token} {r : Except ParseFault Answer} (hp : ts = ds ++ ts')
    (hd : Dropped ds ts') : Call.synchronize.Effect ts r ts' := by
  cases hd with
  | @through lead s _ hplain hs =>
    refine .inr ⟨lead ++ [s], by simp, hp, ?_, .inl ⟨lead, s, rfl, hs, fun t ht => (hplain t ht).1⟩⟩
    intro t ht
    rcases List.mem_append.1 ht with ht | ht
    · exact ⟨(hplain t ht).2.2, (hplain t ht).2.1⟩
    · rw [List.mem_singleton.1 ht, hs]
      decide
  | upTo hplain hb =>
    by_cases hnil : ds = []
    · subst hnil
      rw [List.nil_append] at hp
      exact .inl ⟨hp.symm, hp ▸ hb⟩
    · exact .inr ⟨ds, hnil, hp, fun t ht => ⟨(hplain t ht).2.2, (hplain t ht).2.1⟩,
        .inr ⟨fun t ht => (hplain t ht).1, hb⟩⟩

/-- **What a call does.** -/
theorem effect (c : Call) (s : TokenStream σ) :
    c.Effect s.pending (c.action.runOn s).1 (c.next s).pending := by
  cases c with
  | peek =>
    rw [next, action, runOn_answer]
    exact Parser.pending_peek s
  | check kinds =>
    rw [next, action, runOn_answer, Parser.runOn_check]
    cases h : s.next? with
    | none => rfl
    | some r => exact TokenStream.pending_hold_of_next? h
  | atEnd =>
    rw [next, action, runOn_answer, Parser.runOn_atEnd]
    cases h : s.next? with
    | none => rfl
    | some r => exact TokenStream.pending_hold_of_next? h
  | advance =>
    rw [next, action, runOn_answer, Parser.runOn_advance]
    cases h : s.next? with
    | none =>
      have hp := TokenStream.pending_of_next?_none h
      exact .inr ⟨hp, hp, rfl⟩
    | some r => exact .inl ⟨r.1, TokenStream.pending_of_next?_some h, rfl⟩
  | expect k =>
    rw [next, action, runOn_answer, Parser.runOn_expect]
    cases h : s.next? with
    | none => exact .inr ⟨_, rfl, rfl⟩
    | some r =>
      by_cases hk : r.1.kind = k
      · simp only [hk, ↓reduceIte]
        exact .inl ⟨r.1, TokenStream.pending_of_next?_some h, hk, rfl⟩
      · simp only [hk, ↓reduceIte]
        exact .inr ⟨_, TokenStream.pending_hold_of_next? h, rfl⟩
  | statement =>
    rw [next, action, runOn_answer]
    refine ⟨(Parser.pending_statement s).1, fun u hu => (Parser.pending_statement s).2 u ?_⟩
    cases hr : ((Parser.statement : Parser σ Binding).runOn s).1 with
    | ok b => rw [hr] at hu; cases hu
    | error f => rw [hr] at hu; exact congrArg Except.error (Except.error.inj hu)
  | letStatement =>
    rw [next, action, runOn_answer]
    exact (Parser.takes_letStatement s).1
  | program =>
    rw [next, action, runOn_answer]
    exact Parser.pending_programFrom s
  | synchronize =>
    obtain ⟨ds, hp, hd⟩ := Parser.exists_dropped_synchronizeFrom s
    exact effect_of_dropped hp hd

/-- a call takes tokens from the front -/
theorem pending_next_suffix (c : Call) (s : TokenStream σ) : (c.next s).pending <:+ s.pending := by
  have h := c.effect s
  cases c with
  | peek | check | atEnd => exact h ▸ List.suffix_refl _
  | advance =>
    rcases h with ⟨t, hp, -⟩ | ⟨hp, hp', -⟩
    · exact hp ▸ List.suffix_cons t _
    · exact hp ▸ hp' ▸ List.suffix_refl _
  | expect k =>
    rcases h with ⟨t, hp, -⟩ | ⟨f, hp, -⟩
    · exact hp ▸ List.suffix_cons t _
    · exact hp ▸ List.suffix_refl _
  | statement => exact h.1
  | letStatement => exact h
  | program => exact h ▸ List.dropWhile_suffix _
  | synchronize =>
    rcases h with ⟨hp, -⟩ | ⟨ds, -, hp, -⟩
    · exact hp ▸ List.suffix_refl _
    · exact hp ▸ List.suffix_append ds _

end Call

/-- **Nothing comes again.** What is pending after calls is the end of what was pending before them. -/
theorem pending_afterCalls_suffix (calls : List Call) (s : TokenStream σ) :
    (afterCalls calls s).pending <:+ s.pending := by
  induction calls generalizing s with
  | nil => exact List.suffix_refl _
  | cons c calls ih =>
    rw [afterCalls_cons]
    exact (ih (c.next s)).trans (c.pending_next_suffix s)

/-- **Lookahead loses no token and repeats none.** However a parser on a token list has been used, the token that is
held and those that were not pulled yet are the end of the list, so at most one token was pulled that is not taken; and
every call that comes next does to these tokens what is its to do. -/
theorem calls_conserve (ts : List Token) (calls : List Call) :
    let s := afterCalls calls (TokenStream.ofSource ts)
    s.pending = s.lookahead.toList ++ s.source ∧
      (∃ taken pulled, ts = taken ++ s.pending ∧ ts = pulled ++ s.source ∧ pulled = taken ++ s.lookahead.toList ∧
        pulled.length ≤ taken.length + 1) ∧
      ∀ c : Call, c.Effect s.pending (c.action.runOn s).1 (c.next s).pending := by
  intro s
  have hlist : s.pending = s.lookahead.toList ++ s.source := TokenStream.pending_list s
  have hsuffix : s.pending <:+ ts := by
    have h := pending_afterCalls_suffix calls (TokenStream.ofSource ts)
    rwa [TokenStream.pending_ofSource, TokenSource.drain_list] at h
  obtain ⟨taken, htaken⟩ := hsuffix
  refine ⟨hlist, ⟨taken, taken ++ s.lookahead.toList, htaken.symm, ?_, rfl, ?_⟩, fun c => c.effect s⟩
  · rw [List.append_assoc, ← hlist, htaken]
  · cases s.lookahead <;> simp

end LetFront
