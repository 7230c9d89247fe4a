/-
One parser on two sources. A parser sees of its source only the tokens it pulls, so two streams that hold the same token
over sources with the same tokens left cannot be told apart by any calls. In particular a parser that has its text
scanned as it goes answers as one on the list of the text's tokens.

`Agrees s s'`: the streams hold the same token, and their sources have the same tokens left.

Main statements: `Agrees.next?_cases`, streams that agree give the same token and agree again; `parallel_action`, every
call keeps streams in agreement; `turns_eq_of_drain_eq`, so do any calls; `dry_turns`, a stream that has run dry stays
so; `turns_scanner_eq_list`, the scanner and the list.
-/
import Mathlib
import LetFront.Proofs.Program.Conservation
import LetFront.Proofs.Token.Tiling

namespace LetFront

variable {σ τ α β : Type} [TokenSource σ] [TokenSource τ]

/-! ## Streams that agree -/

namespace TokenStream

structure Agrees (s : TokenStream σ) (s' : TokenStream τ) : Prop where
  lookahead : s.lookahead = s'.lookahead
  drain : (TokenSource.drain s.source).1 = (TokenSource.drain s'.source).1

theorem Agrees.pending {s : TokenStream σ} {s' : TokenStream τ} (h : s.Agrees s') : s.pending = s'.pending := by
  rw [TokenStream.pending, TokenStream.pending, h.lookahead, h.drain]

theorem agrees_of_pending {s : TokenStream σ} {s' : TokenStream τ} (hs : s.lookahead = none)
    (hs' : s'.lookahead = none) (h : s.pending = s'.pending) : s.Agrees s' where
  lookahead := hs.trans hs'.symm
  drain := by simpa [TokenStream.pending, hs, hs'] using h

theorem Agrees.hold {s : TokenStream σ} {s' : TokenStream τ} (h : s.Agrees s') (t : Token) :
    (s.hold t).Agrees (s'.hold t) := ⟨rfl, h.drain⟩

/-- streams that agree are both dry, or give the same token and agree again -/
theorem Agrees.next?_cases {s : TokenStream σ} {s' : TokenStream τ} (h : s.Agrees s') :
    s.next? = none ∧ s'.next? = none ∨
      ∃ t r r', s.next? = some (t, r) ∧ s'.next? = some (t, r') ∧ r.Agrees r' := by
  cases hp : s.pending with
  | nil => exact .inl ⟨next?_of_pending_nil hp, next?_of_pending_nil (h.pending.symm.trans hp)⟩
  | cons t ts =>
    obtain ⟨r, hn, hr, hl⟩ := next?_of_pending_cons hp
    obtain ⟨r', hn', hr', hl'⟩ := next?_of_pending_cons (h.pending.symm.trans hp)
    exact .inr ⟨t, r, r', hn, hn', agrees_of_pending hl hl' (hr.trans hr'.symm)⟩

end TokenStream

/-! ## Actions in parallel -/

namespace Parser

/-- on streams that agree the actions end in the same way and leave streams that agree -/
def Parallel (p : Parser σ α) (q : Parser τ α) : Prop :=
  ∀ (s : TokenStream σ) (s' : TokenStream τ), s.Agrees s' →
    (p.runOn s).1 = (q.runOn s').1 ∧ (p.runOn s).2.Agrees (q.runOn s').2

theorem Parallel.bind {p : Parser σ α} {q : Parser τ α} {f : α → Parser σ β} {g : α → Parser τ β}
    (hp : Parallel p q) (hf : ∀ a, Parallel (f a) (g a)) : Parallel (p >>= f) (q >>= g) := by
  intro s s' h
  obtain ⟨hr, hs⟩ := hp s s' h
  rw [runOn_bind, runOn_bind]
  cases hrun : p.runOn s with
  | mk r s₁ =>
    cases hrun' : q.runOn s' with
    | mk r' s₁' =>
      rw [hrun, hrun'] at hr hs
      obtain rfl : r = r' := hr
      cases r with
      | ok a => exact hf a s₁ s₁' hs
      | error e => exact ⟨rfl, hs⟩

theorem parallel_pure (a : α) : Parallel (pure a : Parser σ α) (pure a : Parser τ α) := fun _ _ h => ⟨rfl, h⟩

theorem parallel_throw (f : ParseFault) : Parallel (throw f : Parser σ α) (throw f : Parser τ α) :=
  fun _ _ h => ⟨rfl, h⟩

theorem parallel_peek : Parallel (peek : Parser σ Token) (peek : Parser τ Token) := by
  intro s s' h
  rw [runOn_peek, runOn_peek]
  rcases h.next?_cases with ⟨hn, hn'⟩ | ⟨t, r, r', hn, hn', hr⟩
  · rw [hn, hn']
    exact ⟨rfl, h⟩
  · rw [hn, hn']
    exact ⟨rfl, hr.hold t⟩

theorem parallel_advance : Parallel (advance : Parser σ Token) (advance : Parser τ Token) := by
  intro s s' h
  rw [runOn_advance, runOn_advance]
  rcases h.next?_cases with ⟨hn, hn'⟩ | ⟨t, r, r', hn, hn', hr⟩
  · rw [hn, hn']
    exact ⟨rfl, h⟩
  · rw [hn, hn']
    exact ⟨rfl, hr⟩

theorem parallel_check (kinds : List Kind) : Parallel (check kinds : Parser σ Bool) (check kinds : Parser τ Bool) :=
  parallel_peek.bind fun _ => parallel_pure _

theorem parallel_expect (kind : Kind) : Parallel (expect kind : Parser σ Token) (expect kind : Parser τ Token) := by
  refine parallel_peek.bind fun t => ?_
  split
  · exact parallel_advance
  · exact parallel_throw _

theorem parallel_atEnd : Parallel (atEnd : Parser σ Bool) (atEnd : Parser τ Bool) := by
  intro s s' h
  rw [runOn_atEnd, runOn_atEnd]
  rcases h.next?_cases with ⟨hn, hn'⟩ | ⟨t, r, r', hn, hn', hr⟩
  · rw [hn, hn']
    exact ⟨rfl, h⟩
  · rw [hn, hn']
    exact ⟨rfl, hr.hold t⟩

theorem skipValueFrom_of_none {s : TokenStream σ} (h : s.next? = none) : skipValueFrom s = (.error .endOfInput, s) := by
  rw [skipValueFrom.eq_def]
  split
  · rfl
  · next h' => rw [h] at h'; cases h'

theorem parallel_skipValue : Parallel (skipValue : Parser σ Unit) (skipValue : Parser τ Unit) := by
  intro s s' h
  rw [runOn_skipValue, runOn_skipValue]
  induction hn : s.size using Nat.strong_induction_on generalizing s s' with
  | _ n ih =>
    rcases h.next?_cases with ⟨hn, hn'⟩ | ⟨t, r, r', hn, hn', hr⟩
    · rw [skipValueFrom_of_none hn, skipValueFrom_of_none hn']
      exact ⟨rfl, h⟩
    · rw [skipValueFrom_of_some hn, skipValueFrom_of_some hn']
      split
      · exact ⟨rfl, hr⟩
      · split
        · exact ⟨rfl, hr.hold t⟩
        · exact ih r.size (by have := TokenStream.size_next?_lt hn; omega) r r' hr rfl

theorem parallel_letStatement : Parallel (letStatement : Parser σ Binding) (letStatement : Parser τ Binding) :=
  (parallel_expect _).bind fun _ => (parallel_expect _).bind fun _ => (parallel_expect _).bind fun _ =>
    parallel_skipValue.bind fun _ => parallel_pure _

theorem parallel_statement : Parallel (statement : Parser σ Binding) (statement : Parser τ Binding) := by
  refine parallel_peek.bind fun t => ?_
  split
  · exact parallel_letStatement
  · exact parallel_throw _

theorem synchronizeFrom_of_none {s : TokenStream σ} (h : s.next? = none) : synchronizeFrom s = s := by
  rw [synchronizeFrom.eq_def]
  split
  · rfl
  · next h' => rw [h] at h'; cases h'

theorem agrees_synchronizeFrom {s : TokenStream σ} {s' : TokenStream τ} (h : s.Agrees s') :
    (synchronizeFrom s).Agrees (synchronizeFrom s') := by
  induction hn : s.size using Nat.strong_induction_on generalizing s s' with
  | _ n ih =>
    rcases h.next?_cases with ⟨hn, hn'⟩ | ⟨t, r, r', hn, hn', hr⟩
    · rw [synchronizeFrom_of_none hn, synchronizeFrom_of_none hn']
      exact h
    · rw [synchronizeFrom_of_some hn, synchronizeFrom_of_some hn']
      split
      · exact hr.hold t
      · split
        · exact hr
        · exact ih r.size (by have := TokenStream.size_next?_lt hn; omega) hr rfl

theorem round_agrees {s : TokenStream σ} {s' : TokenStream τ} (h : s.Agrees s') :
    (round s).1 = (round s').1 ∧ (round s).2.Agrees (round s').2 := by
  obtain ⟨hr, hs⟩ := parallel_statement s s' h
  unfold round
  cases hrun : statement.runOn s with
  | mk r s₁ =>
    cases hrun' : statement.runOn s' with
    | mk r' s₁' =>
      rw [hrun, hrun'] at hr hs
      obtain rfl : r = r' := hr
      cases r with
      | ok b => exact ⟨rfl, hs⟩
      | error f => exact ⟨rfl, agrees_synchronizeFrom hs⟩

theorem programFrom_agrees {s : TokenStream σ} {s' : TokenStream τ} (h : s.Agrees s') :
    (programFrom s).1 = (programFrom s').1 ∧ (programFrom s).2.Agrees (programFrom s').2 := by
  induction hn : s.size using Nat.strong_induction_on generalizing s s' with
  | _ n ih =>
    rw [programFrom_eq, programFrom_eq]
    rcases h.next?_cases with ⟨hn, hn'⟩ | ⟨t, r, r', hn, hn', hr⟩
    · rw [hn, hn']
      exact ⟨rfl, h⟩
    · rw [hn, hn']
      by_cases ht : t.kind = .endOfInput
      · simp only [ht, ↓reduceIte]
        exact ⟨trivial, hr.hold t⟩
      · simp only [ht, ↓reduceIte]
        have hlt := size_round_lt hn ht
        obtain ⟨hround, hs⟩ := round_agrees (hr.hold t)
        cases hrun : round (r.hold t) with
        | mk o s₁ =>
          cases hrun' : round (r'.hold t) with
          | mk o' s₁' =>
            rw [hrun, hrun'] at hround hs
            rw [hrun] at hlt
            obtain rfl : o = o' := hround
            replace hlt : s₁.size < s.size := hlt
            obtain ⟨hprogram, hrest⟩ := ih s₁.size (by omega) hs rfl
            replace hprogram : (programFrom s₁).1 = (programFrom s₁').1 := hprogram
            cases o with
            | ok b =>
              simp only [hprogram]
              exact ⟨trivial, hrest⟩
            | error f =>
              simp only [hprogram]
              exact ⟨trivial, hrest⟩

theorem parallel_program : Parallel (program : Parser σ Program) (program : Parser τ Program) := by
  intro s s' h
  obtain ⟨hprogram, hrest⟩ := programFrom_agrees h
  exact ⟨congrArg Except.ok hprogram, hrest⟩

theorem parallel_synchronize : Parallel (synchronize : Parser σ Unit) (synchronize : Parser τ Unit) :=
  fun _ _ h => ⟨rfl, agrees_synchronizeFrom h⟩

/-- **Every call keeps streams in agreement**, and is answered on both in the same way. -/
theorem parallel_action (c : Call) : Parallel (c.action : Parser σ Answer) (c.action : Parser τ Answer) := by
  cases c with
  | peek => exact parallel_peek.bind fun _ => parallel_pure _
  | advance => exact parallel_advance.bind fun _ => parallel_pure _
  | check kinds => exact (parallel_check kinds).bind fun _ => parallel_pure _
  | expect kind => exact (parallel_expect kind).bind fun _ => parallel_pure _
  | atEnd => exact parallel_atEnd.bind fun _ => parallel_pure _
  | statement => exact parallel_statement.bind fun _ => parallel_pure _
  | letStatement => exact parallel_letStatement.bind fun _ => parallel_pure _
  | synchronize => exact parallel_synchronize.bind fun _ => parallel_pure _
  | program => exact parallel_program.bind fun _ => parallel_pure _

end Parser

/-! ## Calls on streams that agree -/

theorem TokenStream.Agrees.turns {s : TokenStream σ} {s' : TokenStream τ} (h : s.Agrees s') (calls : List Call) :
    turns calls s = turns calls s' := by
  induction calls generalizing s s' with
  | nil => rfl
  | cons c calls ih =>
    obtain ⟨hr, hs⟩ := Parser.parallel_action c s s' h
    replace hs : (c.next s).Agrees (c.next s') := hs
    have hturn : c.turn s = c.turn s' := by
      rw [Call.turn, Call.turn, hr]
      exact congrArg (Turn.mk _) hs.lookahead
    change c.turn s :: LetFront.turns calls (c.next s) = c.turn s' :: LetFront.turns calls (c.next s')
    rw [hturn, ih hs]

/-- **Sources with the same tokens** cannot be told apart by calls. -/
theorem turns_eq_of_drain_eq {source : σ} {source' : τ}
    (h : (TokenSource.drain source).1 = (TokenSource.drain source').1) (calls : List Call) :
    turns calls (.ofSource source) = turns calls (.ofSource source') := by
  have hagrees : (TokenStream.ofSource source).Agrees (TokenStream.ofSource source') := ⟨rfl, h⟩
  exact hagrees.turns calls

/-- sources with the same tokens have the same program -/
theorem ofSource_eq_of_drain_eq {source : σ} {source' : τ}
    (h : (TokenSource.drain source).1 = (TokenSource.drain source').1) :
    Program.ofSource source = Program.ofSource source' := by
  have hagrees : (TokenStream.ofSource source).Agrees (TokenStream.ofSource source') := ⟨rfl, h⟩
  exact (Parser.programFrom_agrees hagrees).1

/-! ## Past the end -/

/-- how a call ends where nothing is left: whoever needs a token fails -/
def Call.dry : Call → Turn
  | atEnd => ⟨.ok (.flag true), none⟩
  | synchronize => ⟨.ok .done, none⟩
  | program => ⟨.ok (.program .empty), none⟩
  | _ => ⟨.error ⟨"unexpected end of input", none⟩, none⟩

theorem lookahead_of_pending_nil {s : TokenStream σ} (h : s.pending = []) : s.lookahead = none := by
  have hnil := (List.append_eq_nil_iff.1 h).1
  simpa using hnil

theorem Call.turn_dry {s : TokenStream σ} (h : s.pending = []) (c : Call) :
    c.turn s = c.dry ∧ (c.next s).pending = [] := by
  have hnext : (c.next s).pending = [] := List.suffix_nil.1 (h ▸ c.pending_next_suffix s)
  have hn := TokenStream.next?_of_pending_nil h
  refine ⟨?_, hnext⟩
  rw [Call.turn, lookahead_of_pending_nil hnext]
  have hpeek : (Parser.peek : Parser σ Token).runOn s = (.error .endOfInput, s) := by rw [Parser.runOn_peek, hn]
  cases c with
  | peek => rw [action, runOn_answer, hpeek]; rfl
  | advance => rw [action, runOn_answer, Parser.runOn_advance, hn]; rfl
  | check kinds => rw [action, runOn_answer, Parser.runOn_check, hn]; rfl
  | expect kind => rw [action, runOn_answer, Parser.runOn_expect, hn]; rfl
  | atEnd => rw [action, runOn_answer, Parser.runOn_atEnd, hn]; rfl
  | statement =>
    rw [action, runOn_answer, Parser.statement, Parser.runOn_bind, hpeek]
    rfl
  | letStatement =>
    rw [action, runOn_answer, Parser.letStatement, Parser.runOn_bind, Parser.runOn_expect, hn]
    rfl
  | synchronize => rfl
  | program =>
    have hprogram : (Parser.programFrom s).1 = .empty := by rw [Parser.programFrom_eq, hn]
    rw [action, runOn_answer]
    change Turn.mk (.ok (.program (Parser.programFrom s).1)) none = _
    rw [hprogram]
    rfl

/-- **A stream that has run dry stays so**, whatever is called. -/
theorem dry_turns {s : TokenStream σ} (h : s.pending = []) (calls : List Call) :
    turns calls s = calls.map Call.dry := by
  induction calls generalizing s with
  | nil => rfl
  | cons c calls ih =>
    obtain ⟨hturn, hnext⟩ := c.turn_dry h
    rw [turns, hturn, ih hnext, List.map_cons]

theorem getElem?_turns (calls : List Call) (s : TokenStream σ) (i : ℕ) :
    (turns calls s)[i]? = calls[i]?.map fun c => c.turn (afterCalls (calls.take i) s) := by
  induction calls generalizing s i with
  | nil => rfl
  | cons c calls ih =>
    cases i with
    | zero => rfl
    | succ i => exact ih (c.next s) i

theorem drop_turns (calls : List Call) (s : TokenStream σ) (n : ℕ) :
    (turns calls s).drop n = turns (calls.drop n) (afterCalls (calls.take n) s) := by
  induction calls generalizing s n with
  | nil => cases n <;> rfl
  | cons c calls ih =>
    cases n with
    | zero => rfl
    | succ n => exact ih (c.next s) n

theorem afterCalls_append (as bs : List Call) (s : TokenStream σ) :
    afterCalls (as ++ bs) s = afterCalls bs (afterCalls as s) := List.foldl_append

/-- nothing follows the token for the end among the tokens of a source -/
theorem nil_of_end_suffix {source : String} {t : Token} {ts : List Token} (h : t :: ts <:+ tokens source)
    (ht : t.kind = .endOfInput) : ts = [] := by
  obtain ⟨us, last, htokens, hkinds, -⟩ := exists_tokens_end source
  obtain ⟨lead, hlead⟩ := h
  rcases List.eq_nil_or_concat ts with rfl | ⟨vs, v, rfl⟩
  · rfl
  · rw [htokens, List.concat_eq_append, ← List.cons_append, ← List.append_assoc] at hlead
    obtain ⟨rfl, -⟩ := List.append_inj' hlead rfl
    exact absurd ht (hkinds t (by simp))

omit [TokenSource σ] in
theorem Call.exists_of_runOn_answer {p : Parser σ α} {f : α → Answer} {s : TokenStream σ} {a : Answer}
    (h : ((do return f (← p) : Parser σ Answer).runOn s).1 = .ok a) : ∃ x, (p.runOn s).1 = .ok x ∧ f x = a := by
  rw [runOn_answer] at h
  cases hr : (p.runOn s).1 with
  | ok x => rw [hr] at h; exact ⟨x, rfl, Except.ok.inj h⟩
  | error e => rw [hr] at h; cases h

/-- a call that gives back a token and holds none has taken that token from the front -/
theorem Call.pending_of_taken {c : Call} {s : TokenStream σ} {t : Token} (h : c.turn s = ⟨.ok (.token t), none⟩) :
    s.pending = t :: (c.next s).pending := by
  obtain ⟨houtcome, hheld⟩ := Turn.mk.inj h
  have hok : (c.action.runOn s).1 = .ok (.token t) := by
    cases hr : (c.action.runOn s).1 with
    | ok a => rw [hr] at houtcome; exact congrArg Except.ok (Except.ok.inj houtcome)
    | error f => rw [hr] at houtcome; cases houtcome
  have heffect := c.effect s
  rw [hok] at heffect
  cases c with
  | advance =>
    rcases heffect with ⟨u, hp, hu⟩ | ⟨-, -, hu⟩
    · cases hu
      exact hp
    · cases hu
  | expect k =>
    rcases heffect with ⟨u, hp, -, hu⟩ | ⟨f, -, hu⟩
    · cases hu
      exact hp
    · cases hu
  | peek =>
    -- the token that was looked at is held
    rw [next, action, runOn_answer, Parser.runOn_peek] at hheld
    rw [action, runOn_answer, Parser.runOn_peek] at hok
    cases hn : s.next? with
    | none => rw [hn] at hok; cases hok
    | some r => rw [hn] at hheld; cases hheld
  | check | atEnd | statement | letStatement | synchronize | program =>
    rw [action] at hok
    obtain ⟨a, -, ha⟩ := exists_of_runOn_answer hok
    cases ha

/-- **Scanning as one goes.** A parser that has a text scanned token by token and one on the list of the tokens of the
text answer any calls in the same way and hold the same token after each. Once one of them has taken the token for the
end, whatever needs another token fails, every time. -/
theorem turns_scanner_eq_list (source : String) (calls : List Call) :
    turns calls (.ofSource (Scanner.ofString source)) = turns calls (.ofSource (tokens source)) ∧
      ∀ i t, (turns calls (.ofSource (Scanner.ofString source)))[i]? = some ⟨.ok (.token t), none⟩ →
        t.kind = .endOfInput →
        (turns calls (.ofSource (Scanner.ofString source))).drop (i + 1) = (calls.drop (i + 1)).map Call.dry := by
  have hdrain : (TokenSource.drain (Scanner.ofString source)).1 = (TokenSource.drain (tokens source)).1 := by
    rw [TokenSource.drain_list]
    rfl
  refine ⟨turns_eq_of_drain_eq hdrain calls, fun i t hturn ht => ?_⟩
  rw [getElem?_turns] at hturn
  obtain ⟨c, hc, hturn⟩ := Option.map_eq_some_iff.1 hturn
  rw [drop_turns]
  refine dry_turns ?_ _
  -- what was pending with the token for the end in front is the end of the tokens, where nothing follows that token
  rw [List.take_add_one, hc, afterCalls_append]
  have htaken := Call.pending_of_taken hturn
  have hsuffix := pending_afterCalls_suffix (calls.take i) (TokenStream.ofSource (Scanner.ofString source))
  rw [htaken, TokenStream.pending_ofSource] at hsuffix
  exact nil_of_end_suffix hsuffix ht

/-- behind a name alone two calls past the token for the end fail alike -/
theorem turns_scanner_eq_list_of_name :
    let s := TokenStream.ofSource (Scanner.ofString "x")
    let calls := [Call.advance, .advance, .peek, .expect .endOfInput]
    (turns calls s)[1]? = some ⟨.ok (.token ⟨.endOfInput, "", ⟨1, 1⟩⟩), none⟩ ∧
      (turns calls s).drop 2 =
        [⟨.error ⟨"unexpected end of input", none⟩, none⟩, ⟨.error ⟨"unexpected end of input", none⟩, none⟩] := by
  intro s calls
  have htokens : tokens "x" = [⟨.identifier, "x", ⟨1, 0⟩⟩, ⟨.endOfInput, "", ⟨1, 1⟩⟩] := by cbv
  obtain ⟨hagree, hdry⟩ := turns_scanner_eq_list "x" calls
  have hend : (turns calls s)[1]? = some ⟨.ok (.token ⟨.endOfInput, "", ⟨1, 1⟩⟩), none⟩ := by
    rw [hagree, htokens]
    rfl
  exact ⟨hend, hdry 1 _ hend rfl⟩

end LetFront
