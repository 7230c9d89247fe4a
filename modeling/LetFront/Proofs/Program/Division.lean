/-
How a token list is read, told without a parser. The tokens in front of the end are divided into segments, one after
the other, and each segment is read as a let statement or as an error. A segment that is no let statement has its
error at its front, and goes on as far as recovery drops tokens.

What follows a segment matters: a let in front of something else than a name is an error about what stands there,
and that may be the let of the next segment, the token for the end, or nothing at all.

Main statements: `round_of_segment`, a round of the parser takes a segment and reads it; `exists_segment`, there is one
at the front of every nonempty list; `division_unique`, there is one division only; `exists_division_ofSource`,
whatever the tokens come from, their program is what their segments are read as; `node_ofTokens_division`, the same of
a token list, with its one division.
-/
import LetFront.Proofs.Program.Pending

namespace LetFront

/-- what a segment is read as -/
abbrev Reading := Except ParseError Node

/-- the error of a let statement that breaks off where a token of the kind `k` should stand in front of `rest` -/
def missing (k : Kind) (rest : List Token) : ParseError :=
  match rest.head? with
  | none => ⟨"unexpected end of input", none⟩
  | some u => ⟨"expected a '" ++ k.name ++ "' token but got '" ++ u.kind.name ++ "'", some u.location⟩

/-- `seg`, with `after` behind it, is one segment and reads so -/
inductive Segment : List Token → List Token → Reading → Prop
  /-- a let statement through its semicolon -/
  | binding {k n a s : Token} {v : List Token} (after : List Token) (hk : k.kind = .letWord)
      (hn : n.kind = .identifier) (ha : a.kind = .assign) (hv : ∀ t ∈ v, t.kind ≠ .semicolon)
      (hs : s.kind = .semicolon) :
      Segment (k :: n :: a :: (v ++ [s])) after (.ok (.letStatement k (.identifier n n.literal) .placeholder))
  /-- a token that begins no statement -/
  | stray {u : Token} {ds after : List Token} (hu : u.kind ≠ .letWord) (hd : Dropped (u :: ds) after) :
      Segment (u :: ds) after (.error ⟨"unexpected token: " ++ u.kind.name, some u.location⟩)
  /-- a let without a name -/
  | unnamed {k : Token} {ds after : List Token} (hk : k.kind = .letWord)
      (hu : ∀ u ∈ (ds ++ after).head?, u.kind ≠ .identifier) (hd : Dropped ds after) :
      Segment (k :: ds) after (.error (missing .identifier (ds ++ after)))
  /-- a let with a name that gets no value -/
  | unassigned {k n : Token} {ds after : List Token} (hk : k.kind = .letWord) (hn : n.kind = .identifier)
      (hu : ∀ u ∈ (ds ++ after).head?, u.kind ≠ .assign) (hd : Dropped ds after) :
      Segment (k :: n :: ds) after (.error (missing .assign (ds ++ after)))
  /-- a let statement whose value never ends -/
  | unclosed {k n a : Token} {v after : List Token} (hk : k.kind = .letWord) (hn : n.kind = .identifier)
      (ha : a.kind = .assign) (hv : ∀ t ∈ v, t.kind ≠ .semicolon) (he : AtEnd after) :
      Segment (k :: n :: a :: v) after (.error ⟨"unexpected end of input", none⟩)

/-- `ps` are segments with their readings, one after the other, and `post` follows the last of them -/
inductive Divides (post : List Token) : List (List Token × Reading) → Prop
  | nil : Divides post []
  | cons {seg : List Token} {r : Reading} {ps : List (List Token × Reading)}
      (hseg : Segment seg (ps.flatMap Prod.fst ++ post) r) (hps : Divides post ps) : Divides post ((seg, r) :: ps)

/-- the statements that were read, in order -/
def statementsOf (ps : List (List Token × Reading)) : List Node := ps.filterMap fun p => p.2.toOption

/-- the errors that were met, in order -/
def errorsOf (ps : List (List Token × Reading)) : List ParseError :=
  ps.filterMap fun p => match p.2 with
    | .ok _ => none
    | .error e => some e

theorem statementsOf_append (ps qs : List (List Token × Reading)) :
    statementsOf (ps ++ qs) = statementsOf ps ++ statementsOf qs := List.filterMap_append

theorem errorsOf_append (ps qs : List (List Token × Reading)) : errorsOf (ps ++ qs) = errorsOf ps ++ errorsOf qs :=
  List.filterMap_append

/-- the tokens in front of the one for the end -/
def front (ts : List Token) : List Token := ts.takeWhile (·.kind ≠ .endOfInput)

/-- the token for the end and what follows it -/
def back (ts : List Token) : List Token := ts.dropWhile (·.kind ≠ .endOfInput)

theorem front_append_back (ts : List Token) : front ts ++ back ts = ts := List.takeWhile_append_dropWhile

theorem kind_ne_of_mem_front {ts : List Token} {t : Token} (h : t ∈ front ts) : t.kind ≠ .endOfInput := by
  simpa using List.all_eq_true.1 List.all_takeWhile t h

theorem atEnd_back (ts : List Token) : AtEnd (back ts) := by
  intro t ht
  have h := List.head?_dropWhile_not (fun t : Token => decide (t.kind ≠ .endOfInput)) ts
  rw [back, Option.mem_def] at ht
  rw [ht] at h
  simpa using h

theorem front_back_append {ts us : List Token} (hts : ∀ t ∈ ts, t.kind ≠ .endOfInput) (hus : AtEnd us) :
    front (ts ++ us) = ts ∧ back (ts ++ us) = us := by
  have hall : ∀ t ∈ ts, decide (t.kind ≠ .endOfInput) = true := fun t ht => decide_eq_true (hts t ht)
  have hstop : us.takeWhile (·.kind ≠ .endOfInput) = [] ∧ us.dropWhile (·.kind ≠ .endOfInput) = us := by
    cases us with
    | nil => exact ⟨rfl, rfl⟩
    | cons u us => simp [hus u rfl]
  constructor
  · rw [front, List.takeWhile_append_of_pos hall, hstop.1, List.append_nil]
  · rw [back, List.dropWhile_append_of_pos hall, hstop.2]

theorem Segment.ne_nil {seg after : List Token} {r : Reading} (h : Segment seg after r) : seg ≠ [] := by
  cases h <;> exact List.cons_ne_nil _ _

/-- a segment that is read as a binding holds its tokens -/
theorem Segment.of_node {seg after : List Token} {b : Binding} (h : Segment seg after (.ok b.node)) :
    ∃ a v s, seg = b.keyword :: b.name :: a :: (v ++ [s]) ∧ b.keyword.kind = .letWord ∧ b.name.kind = .identifier := by
  cases h with
  | binding _ hk hn _ _ _ => exact ⟨_, _, _, rfl, hk, hn⟩

/-! ## A round of the parser reads a segment -/

/-- an outcome of the parser as a reading -/
def reading : Except ParseFault Binding → Reading
  | .ok b => .ok b.node
  | .error f => .error f.error

namespace Parser

variable {σ : Type} [TokenSource σ]

theorem yields_statement_stray {u : Token} (ts : List Token) (hu : u.kind ≠ .letWord) :
    Yields (statement : Parser σ Binding) (u :: ts) (.error (.unexpected u)) (u :: ts) := by
  refine (yields_peek u ts).bind_ok ?_
  rw [if_neg hu]
  exact yields_throw _ _

/-- behind its keyword a let statement is a name, an equals sign, a value and a semicolon -/
theorem yields_statement_let {k : Token} {ts ts' : List Token} {r : Except ParseFault Binding}
    (hk : k.kind = .letWord)
    (h : Yields (do
      let name ← expect .identifier
      let _ ← expect .assign
      skipValue
      return ⟨k, name⟩ : Parser σ Binding) ts r ts') :
    Yields (statement : Parser σ Binding) (k :: ts) r ts' := by
  refine (yields_peek k ts).bind_ok ?_
  rw [if_pos hk]
  exact (yields_expect ts hk).bind_ok h

theorem yields_expect_missing {k : Kind} {rest : List Token} (h : ∀ u ∈ rest.head?, u.kind ≠ k) :
    ∃ f : ParseFault, f.error = missing k rest ∧ Yields (expect k : Parser σ Token) rest (.error f) rest := by
  cases rest with
  | nil => exact ⟨.endOfInput, rfl, yields_expect_nil k⟩
  | cons u ts => exact ⟨.mismatch k u, rfl, yields_expect_mismatch ts (h u rfl)⟩

theorem round_of_yields_ok {ts ts' : List Token} {b : Binding}
    (h : Yields (statement : Parser σ Binding) ts (.ok b) ts') (s : TokenStream σ) (hs : s.pending = ts) :
    (round s).1 = .ok b ∧ (round s).2.pending = ts' := by
  obtain ⟨h1, h2⟩ := h s hs
  have hrun : statement.runOn s = (.ok b, (statement.runOn s).2) := Prod.ext h1 rfl
  unfold round
  rw [hrun]
  exact ⟨rfl, h2⟩

theorem round_of_yields_error {ts ds after : List Token} {f : ParseFault}
    (h : Yields (statement : Parser σ Binding) ts (.error f) (ds ++ after)) (hd : Dropped ds after)
    (s : TokenStream σ) (hs : s.pending = ts) : (round s).1 = .error f ∧ (round s).2.pending = after := by
  obtain ⟨h1, h2⟩ := h s hs
  have hrun : statement.runOn s = (.error f, (statement.runOn s).2) := Prod.ext h1 rfl
  unfold round
  rw [hrun]
  exact ⟨rfl, pending_synchronizeFrom hd _ h2⟩

/-- **A round reads a segment.** With a segment in front, a round takes exactly that and ends in its reading. -/
theorem round_of_segment {seg after : List Token} {r : Reading} (h : Segment seg after r)
    (hend : ∀ t ∈ seg, t.kind ≠ .endOfInput) (s : TokenStream σ) (hs : s.pending = seg ++ after) :
    reading (round s).1 = r ∧ (round s).2.pending = after := by
  cases h with
  | binding _ hk hn ha hv hsemi =>
    rename_i k n a u v
    have hvalue : ∀ t ∈ v, t.kind ≠ .semicolon ∧ t.kind ≠ .endOfInput := fun t ht =>
      ⟨hv t ht, hend t (by simp [ht])⟩
    have hst : Yields (statement : Parser σ Binding) (k :: n :: a :: (v ++ u :: after)) (.ok ⟨k, n⟩) after := by
      refine yields_statement_let hk ?_
      refine (yields_expect _ hn).bind_ok ((yields_expect _ ha).bind_ok ?_)
      exact (yields_skipValue_append hvalue (yields_skipValue_semicolon after hsemi)).bind_ok (yields_pure _ _)
    obtain ⟨h1, h2⟩ := round_of_yields_ok hst s (by simpa using hs)
    exact ⟨by rw [h1]; rfl, h2⟩
  | stray hu hd =>
    obtain ⟨h1, h2⟩ := round_of_yields_error (yields_statement_stray _ hu) hd s hs
    exact ⟨by rw [h1]; rfl, h2⟩
  | unnamed hk hu hd =>
    obtain ⟨f, hf, hy⟩ := yields_expect_missing (σ := σ) hu
    obtain ⟨h1, h2⟩ := round_of_yields_error (yields_statement_let hk hy.bind_error) hd s hs
    exact ⟨by rw [h1, ← hf]; rfl, h2⟩
  | unassigned hk hn hu hd =>
    obtain ⟨f, hf, hy⟩ := yields_expect_missing (σ := σ) hu
    have hst := yields_statement_let hk ((yields_expect _ hn).bind_ok hy.bind_error)
    obtain ⟨h1, h2⟩ := round_of_yields_error hst hd s hs
    exact ⟨by rw [h1, ← hf]; rfl, h2⟩
  | unclosed hk hn ha hv he =>
    rename_i k n a v
    have hvalue : ∀ t ∈ v, t.kind ≠ .semicolon ∧ t.kind ≠ .endOfInput := fun t ht =>
      ⟨hv t ht, hend t (by simp [ht])⟩
    have hst : Yields (statement : Parser σ Binding) (k :: n :: a :: (v ++ after)) (.error .endOfInput) after := by
      refine yields_statement_let hk ?_
      refine (yields_expect _ hn).bind_ok ((yields_expect _ ha).bind_ok ?_)
      exact (yields_skipValue_append hvalue (yields_skipValue_atEnd he)).bind_error
    -- the value ran into the end, so recovery finds nothing to drop
    have hnone : Dropped [] after := .upTo (by simp) fun t ht => .inl (he t ht)
    obtain ⟨h1, h2⟩ := round_of_yields_error hst hnone s hs
    exact ⟨by rw [h1]; rfl, h2⟩

/-- **A program is read off its segments.** Reading a stream to its end gives what a division of the pending tokens
reads as, and leaves what follows the division. -/
theorem programFrom_of_divides {post : List Token} {ps : List (List Token × Reading)} (h : Divides post ps)
    (hpost : AtEnd post) (hend : ∀ t ∈ ps.flatMap Prod.fst, t.kind ≠ .endOfInput) (s : TokenStream σ)
    (hs : s.pending = ps.flatMap Prod.fst ++ post) :
    (programFrom s).1.statements.map Binding.node = statementsOf ps ∧ (programFrom s).1.errors = errorsOf ps ∧
      (programFrom s).2.pending = post := by
  induction h generalizing s with
  | nil =>
    rw [programFrom_eq]
    cases post with
    | nil =>
      rw [TokenStream.next?_of_pending_nil hs]
      exact ⟨rfl, rfl, hs⟩
    | cons t ts =>
      obtain ⟨s', hn, hp, hl⟩ := TokenStream.next?_of_pending_cons hs
      have ht : t.kind = .endOfInput := hpost t rfl
      simp only [hn, ht, ↓reduceIte]
      exact ⟨rfl, rfl, by rw [TokenStream.pending_hold t hl, hp]⟩
  | @cons seg r ps hseg _ ih =>
    simp only [List.flatMap_cons, List.mem_append] at hend hs
    obtain ⟨t, ts, rfl⟩ := List.exists_cons_of_ne_nil hseg.ne_nil
    obtain ⟨s', hn, hp, hl⟩ := TokenStream.next?_of_pending_cons hs
    have ht : t.kind ≠ .endOfInput := hend t (.inl List.mem_cons_self)
    have hheld : (s'.hold t).pending = (t :: ts) ++ (ps.flatMap Prod.fst ++ post) := by
      rw [TokenStream.pending_hold t hl, hp]
      simp
    obtain ⟨hr, hrest⟩ := round_of_segment hseg (fun u hu => hend u (.inl hu)) _ hheld
    obtain ⟨i1, i2, i3⟩ := ih (fun u hu => hend u (.inr hu)) _ hrest
    rw [programFrom_eq, hn]
    simp only [ht, ↓reduceIte]
    cases hround : round (s'.hold t) with
    | mk o s'' =>
      rw [hround] at hr i1 i2 i3
      cases o with
      | ok b =>
        subst hr
        exact ⟨by simp [i1, statementsOf, reading, Except.toOption], by simp [i2, errorsOf, reading], i3⟩
      | error f =>
        subst hr
        exact ⟨by simp [i1, statementsOf, reading, Except.toOption], by simp [i2, errorsOf, reading], i3⟩

end Parser

/-! ## There is one division -/

theorem Dropped.cons {t : Token} {ds after : List Token} (ht : t.Plain) (h : Dropped ds after) :
    Dropped (t :: ds) after := by
  cases h with
  | through _ hd hs => exact @Dropped.through (t :: _) _ after (List.forall_mem_cons.2 ⟨ht, hd⟩) hs
  | upTo hd ha => exact .upTo (List.forall_mem_cons.2 ⟨ht, hd⟩) ha

theorem Dropped.atBoundary {after : List Token} (h : Dropped [] after) : AtBoundary after := by
  generalize hnil : ([] : List Token) = ds at h
  cases h with
  | through _ _ _ => simp at hnil
  | upTo _ ha => exact ha

theorem exists_dropped {ts post : List Token} (hts : ∀ t ∈ ts, t.kind ≠ .endOfInput) (hpost : AtEnd post) :
    ∃ ds rest, ts = ds ++ rest ∧ Dropped ds (rest ++ post) := by
  induction ts with
  | nil => exact ⟨[], [], rfl, .upTo (by simp) fun t ht => .inl (hpost t ht)⟩
  | cons t ts ih =>
    obtain ⟨ds, rest, rfl, hd⟩ := ih fun u hu => hts u (List.mem_cons_of_mem t hu)
    by_cases hlet : t.kind = .letWord
    · refine ⟨[], t :: (ds ++ rest), rfl, .upTo (by simp) fun u hu => .inr ?_⟩
      cases hu
      exact hlet
    · by_cases hsemi : t.kind = .semicolon
      · exact ⟨[t], ds ++ rest, rfl, @Dropped.through [] t _ (by simp) hsemi⟩
      · exact ⟨t :: ds, rest, rfl, hd.cons ⟨hsemi, hlet, hts t List.mem_cons_self⟩⟩

theorem exists_value (ts : List Token) :
    (∀ t ∈ ts, t.kind ≠ .semicolon) ∨
      ∃ v s rest, ts = v ++ s :: rest ∧ (∀ t ∈ v, t.kind ≠ .semicolon) ∧ s.kind = .semicolon := by
  induction ts with
  | nil => exact .inl (by simp)
  | cons t ts ih =>
    by_cases ht : t.kind = .semicolon
    · exact .inr ⟨[], t, ts, rfl, by simp, ht⟩
    · rcases ih with hv | ⟨v, s, rest, rfl, hv, hs⟩
      · exact .inl (List.forall_mem_cons.2 ⟨ht, hv⟩)
      · exact .inr ⟨t :: v, s, rest, rfl, List.forall_mem_cons.2 ⟨ht, hv⟩, hs⟩

/-- what stands in front of the end and is not the token for it belongs to the list -/
theorem exists_cons_of_head? {ts post : List Token} {k : Kind} (hk : k ≠ .endOfInput) (hpost : AtEnd post)
    (h : ¬ ∀ u ∈ (ts ++ post).head?, u.kind ≠ k) : ∃ t ts', ts = t :: ts' ∧ t.kind = k := by
  cases ts with
  | nil =>
    refine absurd (fun u hu heq => ?_) h
    exact hk (heq ▸ hpost u hu)
  | cons t ts =>
    refine ⟨t, ts, rfl, ?_⟩
    by_contra hne
    exact h fun u hu => by cases hu; exact hne

/-- **A segment at the front.** Every nonempty list of tokens in front of the end begins with a segment. -/
theorem exists_segment {ts post : List Token} (hne : ts ≠ []) (hts : ∀ t ∈ ts, t.kind ≠ .endOfInput)
    (hpost : AtEnd post) : ∃ seg rest r, ts = seg ++ rest ∧ Segment seg (rest ++ post) r := by
  obtain ⟨k, ts, rfl⟩ := List.exists_cons_of_ne_nil hne
  obtain ⟨hkend, hts'⟩ := List.forall_mem_cons.1 hts
  by_cases hk : k.kind = .letWord
  · by_cases hname : ∀ u ∈ (ts ++ post).head?, u.kind ≠ .identifier
    · obtain ⟨ds, rest, rfl, hd⟩ := exists_dropped hts' hpost
      exact ⟨k :: ds, rest, _, rfl, .unnamed hk (by simpa using hname) hd⟩
    obtain ⟨n, ts, rfl, hn⟩ := exists_cons_of_head? (by decide) hpost hname
    obtain ⟨-, hts''⟩ := List.forall_mem_cons.1 hts'
    by_cases hassign : ∀ u ∈ (ts ++ post).head?, u.kind ≠ .assign
    · obtain ⟨ds, rest, rfl, hd⟩ := exists_dropped hts'' hpost
      exact ⟨k :: n :: ds, rest, _, rfl, .unassigned hk hn (by simpa using hassign) hd⟩
    obtain ⟨a, ts, rfl, ha⟩ := exists_cons_of_head? (by decide) hpost hassign
    rcases exists_value ts with hv | ⟨v, s, rest, rfl, hv, hs⟩
    · exact ⟨k :: n :: a :: ts, [], _, by simp, .unclosed hk hn ha hv hpost⟩
    · exact ⟨k :: n :: a :: (v ++ [s]), rest, _, by simp, .binding _ hk hn ha hv hs⟩
  · obtain ⟨ds, rest, hds, hd⟩ := exists_dropped hts hpost
    cases ds with
    | nil =>
      -- recovery never stops in front of `k`, which is neither a let nor the token for the end
      rw [List.nil_append] at hds
      subst hds
      exact absurd (hd.atBoundary k rfl) (not_or.2 ⟨hkend, hk⟩)
    | cons t ds =>
      obtain ⟨rfl, rfl⟩ := List.cons.inj hds
      exact ⟨k :: ds, rest, _, rfl, .stray hk hd⟩

theorem exists_division {ts post : List Token} (hts : ∀ t ∈ ts, t.kind ≠ .endOfInput) (hpost : AtEnd post) :
    ∃ ps, Divides post ps ∧ ps.flatMap Prod.fst = ts := by
  induction hn : ts.length using Nat.strong_induction_on generalizing ts with
  | _ n ih =>
    by_cases hne : ts = []
    · exact ⟨[], .nil, hne.symm⟩
    obtain ⟨seg, rest, r, rfl, hseg⟩ := exists_segment hne hts hpost
    have hlen := List.length_pos_iff.2 hseg.ne_nil
    rw [List.length_append] at hn
    obtain ⟨ps, hps, rfl⟩ := ih rest.length (by omega) (fun t ht => hts t (List.mem_append_right _ ht)) rfl
    exact ⟨(seg, r) :: ps, .cons hseg hps, rfl⟩

/-- two segments at the front of the same tokens are one: a round cannot take both -/
theorem Segment.unique {seg seg' after after' : List Token} {r r' : Reading} (h : Segment seg after r)
    (h' : Segment seg' after' r') (hend : ∀ t ∈ seg, t.kind ≠ .endOfInput) (hend' : ∀ t ∈ seg', t.kind ≠ .endOfInput)
    (heq : seg ++ after = seg' ++ after') : seg = seg' ∧ after = after' ∧ r = r' := by
  have hs : (TokenStream.ofSource (seg ++ after)).pending = seg ++ after := by
    rw [TokenStream.pending_ofSource, TokenSource.drain_list]
  obtain ⟨hr, ha⟩ := Parser.round_of_segment h hend _ hs
  obtain ⟨hr', ha'⟩ := Parser.round_of_segment h' hend' _ (hs.trans heq)
  have hafter : after = after' := ha.symm.trans ha'
  subst hafter
  exact ⟨List.append_cancel_right heq, rfl, hr.symm.trans hr'⟩

theorem division_unique {post : List Token} {ps qs : List (List Token × Reading)} (hp : Divides post ps)
    (hq : Divides post qs) (hend : ∀ t ∈ ps.flatMap Prod.fst, t.kind ≠ .endOfInput)
    (heq : ps.flatMap Prod.fst = qs.flatMap Prod.fst) : ps = qs := by
  induction hp generalizing qs with
  | nil =>
    cases hq with
    | nil => rfl
    | cons hseg _ =>
      rw [List.flatMap_nil, List.flatMap_cons] at heq
      exact absurd (List.append_eq_nil_iff.1 heq.symm).1 hseg.ne_nil
  | @cons seg r ps hseg _ ih =>
    cases hq with
    | nil =>
      rw [List.flatMap_nil, List.flatMap_cons] at heq
      exact absurd (List.append_eq_nil_iff.1 heq).1 hseg.ne_nil
    | @cons seg' r' qs hseg' hqs =>
      simp only [List.flatMap_cons, List.mem_append] at heq hend
      have hend' : ∀ t ∈ seg', t.kind ≠ .endOfInput := fun t ht =>
        hend t (List.mem_append.1 (heq ▸ List.mem_append_left _ ht))
      obtain ⟨rfl, hafter, rfl⟩ := hseg.unique hseg' (fun t ht => hend t (.inl ht)) hend' (by
        rw [← List.append_assoc, ← List.append_assoc, heq])
      rw [ih hqs (fun t ht => hend t (.inr ht)) (List.append_cancel_right hafter)]

/-! ## Whole programs -/

/-- the program of a source is what a division of its tokens reads as -/
theorem ofSource_of_divides {σ : Type} [TokenSource σ] {source : σ} {post : List Token}
    {ps : List (List Token × Reading)} (h : Divides post ps) (hpost : AtEnd post)
    (hend : ∀ t ∈ ps.flatMap Prod.fst, t.kind ≠ .endOfInput)
    (hdrain : (TokenSource.drain source).1 = ps.flatMap Prod.fst ++ post) :
    (Program.ofSource source).statements.map Binding.node = statementsOf ps ∧
      (Program.ofSource source).errors = errorsOf ps := by
  have hs : (TokenStream.ofSource source).pending = ps.flatMap Prod.fst ++ post := hdrain
  obtain ⟨hstatements, herrors, -⟩ := Parser.programFrom_of_divides h hpost hend _ hs
  exact ⟨hstatements, herrors⟩

/-- **A source reads as its segments.** The tokens of a source in front of the end divide into segments, and the program
of the source holds what these are read as. -/
theorem exists_division_ofSource {σ : Type} [TokenSource σ] (source : σ) :
    ∃ ps, Divides (back (TokenSource.drain source).1) ps ∧ ps.flatMap Prod.fst = front (TokenSource.drain source).1 ∧
      (Program.ofSource source).statements.map Binding.node = statementsOf ps ∧
      (Program.ofSource source).errors = errorsOf ps := by
  have hfront : ∀ t ∈ front (TokenSource.drain source).1, t.kind ≠ .endOfInput := fun t => kind_ne_of_mem_front
  obtain ⟨ps, hps, hflat⟩ := exists_division hfront (atEnd_back _)
  refine ⟨ps, hps, hflat, ofSource_of_divides hps (atEnd_back _) (hflat ▸ hfront) ?_⟩
  rw [hflat, front_append_back]

theorem exists_division_ofString (source : String) :
    ∃ ps, Divides (back (tokens source)) ps ∧ ps.flatMap Prod.fst = front (tokens source) ∧
      (Program.ofString source).statements.map Binding.node = statementsOf ps ∧
      (Program.ofString source).errors = errorsOf ps :=
  exists_division_ofSource (Scanner.ofString source)

/-- **Reading by segments.** The tokens of a list in front of the end divide into segments in one way only, and the
program of the list holds the statements and the errors that the segments read as, in order. -/
theorem node_ofTokens_division (ts : List Token) :
    ∃ ps, (Divides (back ts) ps ∧ ps.flatMap Prod.fst = front ts) ∧
      (∀ qs, Divides (back ts) qs ∧ qs.flatMap Prod.fst = front ts → qs = ps) ∧
      (Program.ofTokens ts).node = .program (statementsOf ps) (errorsOf ps) := by
  obtain ⟨ps, hps, hflat, hstatements, herrors⟩ := exists_division_ofSource ts
  rw [TokenSource.drain_list] at hps hflat
  refine ⟨ps, ⟨hps, hflat⟩, fun qs ⟨hqs, hqflat⟩ => ?_, ?_⟩
  · have hend : ∀ t ∈ qs.flatMap Prod.fst, t.kind ≠ .endOfInput := by
      rw [hqflat]
      exact fun t => kind_ne_of_mem_front
    exact division_unique hqs hps hend (hqflat.trans hflat.symm)
  · rw [Program.node, ← hstatements, ← herrors]
    rfl

end LetFront
