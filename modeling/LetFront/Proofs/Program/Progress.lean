/-
The reading of a program comes to its end. The loop looks whether it is at the end and, if not, does a round: it attempts
a statement and recovers if that fails. Neither half need take a token. An attempt that finds no let where it is takes
none, and recovery takes none in front of a let; but the two never come together, so a round always takes one, and a
round that reads a statement takes four. What is taken stands in front of the end, so statements and errors are bounded
by the tokens there, and these by the characters of the source.

`Loop s os s'`: on `s` the loop does the rounds that end in `os`, one after the other, and stops with `s'`.

Main statements: `exists_taken_round`, what a round takes; `exists_loop`, the loop stops and its rounds make the program;
`Loop.exists_taken`, what all its rounds take; `loop_progress`, all of it for a token list, and the bound for a source.
-/
import LetFront.Proofs.Program.Conservation
import LetFront.Proofs.Token.Tiling

namespace LetFront

/-! ## One round -/

theorem exists_of_not_atEnd {ts : List Token} (h : ¬ AtEnd ts) : ∃ t us, ts = t :: us ∧ t.kind ≠ .endOfInput := by
  cases ts with
  | nil => exact absurd (fun t ht => by cases ht) h
  | cons t us => exact ⟨t, us, rfl, fun ht => h fun u hu => by cases hu; exact ht⟩

/-- a segment that is read as a statement has its keyword, a name, an equals sign and a semicolon at least -/
theorem Segment.four_le_length {seg after : List Token} {n : Node} (h : Segment seg after (.ok n)) :
    4 ≤ seg.length := by
  cases h with
  | binding _ _ _ _ _ _ => simp

namespace Parser

variable {σ : Type} [TokenSource σ]

/-- **A round takes a token**, four if it reads a statement, and none from the end on. -/
theorem exists_taken_round {s : TokenStream σ} (h : ¬ AtEnd s.pending) :
    ∃ taken, s.pending = taken ++ (round s).2.pending ∧ taken ≠ [] ∧ (∀ t ∈ taken, t.kind ≠ .endOfInput) ∧
      ∀ b, (round s).1 = .ok b → 4 ≤ taken.length := by
  obtain ⟨t, us, hp, ht⟩ := exists_of_not_atEnd h
  have hne : front s.pending ≠ [] := by simp [front, hp, ht]
  have hfront : ∀ u ∈ front s.pending, u.kind ≠ .endOfInput := fun u => kind_ne_of_mem_front
  obtain ⟨seg, rest, r, hsplit, hseg⟩ := exists_segment hne hfront (atEnd_back s.pending)
  have hkinds : ∀ u ∈ seg, u.kind ≠ .endOfInput := fun u hu => hfront u (hsplit ▸ List.mem_append_left rest hu)
  have hpending : s.pending = seg ++ (rest ++ back s.pending) := by
    rw [← List.append_assoc, ← hsplit, front_append_back]
  obtain ⟨hreading, hafter⟩ := round_of_segment hseg hkinds s hpending
  refine ⟨seg, by rw [hafter]; exact hpending, hseg.ne_nil, hkinds, fun b hb => ?_⟩
  rw [hb] at hreading
  subst hreading
  exact hseg.four_le_length

/-! ## The loop -/

inductive Loop : TokenStream σ → List (Except ParseFault Binding) → TokenStream σ → Prop
  | stop {s s' : TokenStream σ} (h : (atEnd : Parser σ Bool).runOn s = (.ok true, s')) : Loop s [] s'
  | round {s s₁ s₂ s' : TokenStream σ} {o : Except ParseFault Binding} {os : List (Except ParseFault Binding)}
      (h : (atEnd : Parser σ Bool).runOn s = (.ok false, s₁)) (hround : Parser.round s₁ = (o, s₂))
      (hloop : Loop s₂ os s') : Loop s (o :: os) s'

/-- the program that rounds make: a statement or an error for each -/
def programOf (os : List (Except ParseFault Binding)) : Program where
  statements := os.filterMap Except.toOption
  errors := os.filterMap fun
    | .ok _ => none
    | .error f => some f.error

theorem programOf_ok (b : Binding) (os : List (Except ParseFault Binding)) :
    programOf (.ok b :: os) = { programOf os with statements := b :: (programOf os).statements } := rfl

theorem programOf_error (f : ParseFault) (os : List (Except ParseFault Binding)) :
    programOf (.error f :: os) = { programOf os with errors := f.error :: (programOf os).errors } := rfl

/-- **The loop stops**, and the program is what its rounds make. -/
theorem exists_loop (s : TokenStream σ) : ∃ os, Loop s os (programFrom s).2 ∧ (programFrom s).1 = programOf os := by
  induction hn : s.size using Nat.strong_induction_on generalizing s with
  | _ n ih =>
    cases hnext : s.next? with
    | none =>
      have hprogram : programFrom s = (.empty, s) := by rw [programFrom_eq, hnext]
      rw [hprogram]
      exact ⟨[], .stop (by rw [runOn_atEnd, hnext]), rfl⟩
    | some r =>
      obtain ⟨t, s'⟩ := r
      by_cases ht : t.kind = .endOfInput
      · have hprogram : programFrom s = (.empty, s'.hold t) := by
          rw [programFrom_eq, hnext]
          simp only [ht, ↓reduceIte]
        rw [hprogram]
        have htrue : (atEnd : Parser σ Bool).runOn s = (.ok true, s'.hold t) := by
          rw [runOn_atEnd, hnext]
          simp [ht]
        exact ⟨[], .stop htrue, rfl⟩
      · have hlt := size_round_lt hnext ht
        have hfalse : (atEnd : Parser σ Bool).runOn s = (.ok false, s'.hold t) := by
          rw [runOn_atEnd, hnext]
          simp [ht]
        rw [programFrom_eq, hnext]
        simp only [ht, ↓reduceIte]
        cases hround : round (s'.hold t) with
        | mk o s'' =>
          rw [hround] at hlt
          obtain ⟨os, hloop, hprogram⟩ := ih s''.size (hn ▸ hlt) s'' rfl
          cases o with
          | ok b =>
            refine ⟨.ok b :: os, .round hfalse hround hloop, ?_⟩
            simp only [hprogram, programOf_ok]
          | error f =>
            refine ⟨.error f :: os, .round hfalse hround hloop, ?_⟩
            simp only [hprogram, programOf_error]

/-- looking for the end takes nothing, and leaves the next token in hand -/
theorem pending_atEnd {s s' : TokenStream σ} {b : Bool} (h : (atEnd : Parser σ Bool).runOn s = (.ok b, s')) :
    s'.pending = s.pending ∧ (b = true ↔ AtEnd s.pending) ∧ s'.lookahead = s'.pending.head? := by
  rw [runOn_atEnd] at h
  cases hnext : s.next? with
  | none =>
    rw [hnext] at h
    obtain ⟨hb, rfl⟩ := Prod.mk.inj h
    have hp := TokenStream.pending_of_next?_none hnext
    have hlookahead : s.lookahead.toList = [] := (List.append_eq_nil_iff.1 hp).1
    rw [hp]
    exact ⟨rfl, iff_of_true (Except.ok.inj hb).symm fun t ht => (by cases ht), Option.toList_eq_nil_iff.1 hlookahead⟩
  | some r =>
    obtain ⟨t, r⟩ := r
    rw [hnext] at h
    obtain ⟨hb, rfl⟩ := Prod.mk.inj h
    have hp := TokenStream.pending_of_next?_some hnext
    refine ⟨TokenStream.pending_hold_of_next? hnext, ?_, ?_⟩
    · rw [hp, ← Except.ok.inj hb]
      simp [AtEnd]
    · rw [TokenStream.pending_hold_of_next? hnext, hp]
      rfl

/-- **What the loop takes.** Its rounds take all tokens in front of the end, one each at least and four for a
statement. -/
theorem Loop.exists_taken {s s' : TokenStream σ} {os : List (Except ParseFault Binding)} (h : Loop s os s') :
    ∃ taken, s.pending = taken ++ s'.pending ∧ (∀ t ∈ taken, t.kind ≠ .endOfInput) ∧ AtEnd s'.pending ∧
      os.length ≤ taken.length ∧
      4 * (programOf os).statements.length + (programOf os).errors.length ≤ taken.length := by
  induction h with
  | stop h =>
    obtain ⟨hp, hend, -⟩ := pending_atEnd h
    exact ⟨[], hp.symm, by simp, hp ▸ hend.1 rfl, Nat.le_refl _, Nat.le_refl _⟩
  | @round s s₁ s₂ s' o os h hround _ ih =>
    obtain ⟨hp, hend, -⟩ := pending_atEnd h
    have hnot : ¬ AtEnd s₁.pending := by
      rw [hp, ← hend]
      decide
    obtain ⟨first, hfirst, hne, hkinds, hfour⟩ := exists_taken_round hnot
    rw [hround] at hfirst hfour
    obtain ⟨taken, htaken, hkinds', hend', hlength, hbound⟩ := ih
    have hpos := List.length_pos_iff.2 hne
    refine ⟨first ++ taken, ?_, List.forall_mem_append.2 ⟨hkinds, hkinds'⟩, hend', ?_, ?_⟩
    · rw [← hp, hfirst, List.append_assoc, ← htaken]
    · simp only [List.length_cons, List.length_append]
      omega
    · rw [List.length_append]
      cases o with
      | ok b =>
        have hle := hfour b rfl
        simp only [programOf_ok, List.length_cons]
        omega
      | error f =>
        simp only [programOf_error, List.length_cons]
        omega

end Parser

/-! ## Whole programs -/

/-- statements and errors are bounded by the tokens in front of the end -/
theorem bound_ofSource {σ : Type} [TokenSource σ] (source : σ) :
    4 * (Program.ofSource source).statements.length + (Program.ofSource source).errors.length ≤
      (front (TokenSource.drain source).1).length := by
  obtain ⟨os, hloop, hprogram⟩ := Parser.exists_loop (.ofSource source)
  obtain ⟨taken, htaken, hkinds, hend, -, hbound⟩ := hloop.exists_taken
  rw [TokenStream.pending_ofSource] at htaken
  rwa [Program.ofSource, hprogram, htaken, (front_back_append hkinds hend).1]

/-- a source has a character for every token in front of the end -/
theorem length_front_tokens_le (source : String) : (front (tokens source)).length ≤ source.length := by
  obtain ⟨ts, p, htokens, htiles⟩ := exists_tokens_tiling source
  rw [htokens, (front_back_append htiles.kind_ne (atEnd_singleton rfl)).1, ← String.length_toList]
  exact htiles.length_le

/-- **The reading of a program makes progress and ends.** A failed attempt may take nothing and recovery may stop where
it is, yet every round takes a token. So on a token list the loop stops after no more rounds than there are tokens in
front of the end. Four times the statements and the errors together are no more than these tokens either, and for a
source no more than its characters. -/
theorem loop_progress (ts : List Token) (source : String) :
    (∀ s : TokenStream (List Token), ¬ AtEnd s.pending →
      ∃ taken, taken ≠ [] ∧ s.pending = taken ++ (Parser.round s).2.pending) ∧
    (∀ (s : TokenStream (List Token)) (t : Token) (us : List Token), s.pending = t :: us →
      (t.kind ≠ .letWord → (Parser.statement.runOn s).1 = .error (.unexpected t) ∧
        (Parser.statement.runOn s).2.pending = t :: us) ∧
      (t.kind = .letWord → (Parser.synchronizeFrom s).pending = t :: us)) ∧
    (∃ os s', Parser.Loop (.ofSource ts) os s' ∧ Parser.programFrom (.ofSource ts) = (Parser.programOf os, s') ∧
      os.length ≤ (front ts).length) ∧
    4 * (Program.ofTokens ts).statements.length + (Program.ofTokens ts).errors.length ≤ (front ts).length ∧
    4 * (Program.ofString source).statements.length + (Program.ofString source).errors.length ≤ source.length := by
  refine ⟨fun s h => ?_, fun s t us hp => ⟨fun ht => ?_, fun ht => ?_⟩, ?_, ?_, ?_⟩
  · obtain ⟨taken, htaken, hne, -⟩ := Parser.exists_taken_round h
    exact ⟨taken, hne, htaken⟩
  · exact Parser.yields_statement_stray us ht s hp
  · have hboundary : AtBoundary s.pending := by
      rw [hp]
      intro u hu
      cases hu
      exact .inr ht
    rw [Parser.pending_synchronizeFrom_boundary hboundary, hp]
  · obtain ⟨os, hloop, hprogram⟩ := Parser.exists_loop (.ofSource ts)
    obtain ⟨taken, htaken, hkinds, hend, hlength, -⟩ := hloop.exists_taken
    have hts : (TokenStream.ofSource ts).pending = ts := by rw [TokenStream.pending_ofSource, TokenSource.drain_list]
    rw [hts] at htaken
    refine ⟨os, _, hloop, Prod.ext hprogram rfl, ?_⟩
    rwa [htaken, (front_back_append hkinds hend).1]
  · have hbound := bound_ofSource ts
    rwa [TokenSource.drain_list] at hbound
  · exact (bound_ofSource (Scanner.ofString source)).trans (length_front_tokens_le source)

end LetFront
