/-
The end of the input is seen in two ways: by a token for it, or because the source has run dry. A parser that has read
a program holds the token for the end, has pulled nothing behind it, and reads nothing more; so what stands there does
not matter. Without that token the same program is read, but for the last error at most: a let that breaks off at the
end blames the token for the end where there is one, and else says that the input ran out.

`Dries e r r'`: the reading `r` in front of the token `e` for the end is `r'` where the input runs dry instead.

Main statements: `Divides.of_head?`, a division sees one token of what follows it; `Loop.lookahead`, the loop stops with
the token that comes next in hand; `Divides.dry`, a division without the token for the end; `end_is_barrier`, both for
token lists.
-/
import LetFront.Proofs.Program.Boundary
import LetFront.Proofs.Program.Progress

namespace LetFront

/-! ## Behind the token for the end -/

theorem Divides.of_head? {post post' : List Token} {ps : List (List Token × Reading)} (h : Divides post ps)
    (hhead : post'.head? = post.head?) : Divides post' ps := by
  induction h with
  | nil => exact .nil
  | cons hseg _ ih => exact .cons (hseg.of_cut (.inl (head?_append_of_cut (.inl hhead)))) ih

/-- **The loop stops with the next token in hand**, if there is one. -/
theorem Parser.Loop.lookahead {σ : Type} [TokenSource σ] {s s' : TokenStream σ} {os : List (Except ParseFault Binding)}
    (h : Loop s os s') : s'.lookahead = s'.pending.head? := by
  induction h with
  | stop h => exact (pending_atEnd h).2.2
  | round _ _ _ ih => exact ih

/-- over a list, a stream with the next token in hand has the others still to pull -/
theorem TokenStream.eq_of_lookahead {s : TokenStream (List Token)} {t : Token} {ts : List Token}
    (hp : s.pending = t :: ts) (h : s.lookahead = s.pending.head?) : s = ⟨some t, ts⟩ := by
  obtain ⟨lookahead, source⟩ := s
  rw [pending_list] at hp h
  simp only [hp, List.head?_cons] at h
  subst h
  obtain ⟨-, rfl⟩ := List.cons.inj hp
  rfl

/-- the program of a list is what a division of it reads as -/
theorem ofTokens_of_divides {pre post : List Token} {ps : List (List Token × Reading)} (h : Divides post ps)
    (hflat : ps.flatMap Prod.fst = pre) (hpre : ∀ t ∈ pre, t.kind ≠ .endOfInput) (hpost : AtEnd post) :
    (Program.ofTokens (pre ++ post)).statements.map Binding.node = statementsOf ps ∧
      (Program.ofTokens (pre ++ post)).errors = errorsOf ps := by
  subst hflat
  exact ofSource_of_divides h hpost hpre (by rw [TokenSource.drain_list])

/-! ## Without the token for the end -/

/-- the error of a let that the token `e` for the end breaks off where a token of the kind `k` should stand -/
def brokenOff (k : Kind) (e : Token) : ParseError :=
  ⟨"expected a '" ++ k.name ++ "' token but got 'EOF'", some e.location⟩

def ranOut : ParseError := ⟨"unexpected end of input", none⟩

inductive Dries (e : Token) : Reading → Reading → Prop
  | same (r : Reading) : Dries e r r
  | broken {k : Kind} (hk : k = .identifier ∨ k = .assign) : Dries e (.error (brokenOff k e)) (.error ranOut)

theorem AtBoundary.nil : AtBoundary [] := fun t ht => by cases ht

theorem Dropped.dry {ds after : List Token} (h : Dropped ds after) : Dropped ds [] := by
  cases h with
  | through _ hd hs => exact .through [] hd hs
  | upTo hd _ => exact .upTo hd .nil

theorem missing_endOfInput (k : Kind) {e : Token} (he : e.kind = .endOfInput) : missing k [e] = brokenOff k e := by
  have htail : "' token but got '" ++ (Kind.endOfInput.name ++ "'") = "' token but got 'EOF'" := by decide
  unfold missing brokenOff
  simp only [List.head?_cons, he, String.append_assoc, htail]

/-- a let that breaks off at the end, with and without a token for it -/
theorem dries_missing {k : Kind} (hk : k = .identifier ∨ k = .assign) {e : Token} (he : e.kind = .endOfInput)
    (ds : List Token) : Dries e (.error (missing k (ds ++ [e]))) (.error (missing k (ds ++ []))) := by
  cases ds with
  | nil =>
    rw [List.nil_append, missing_endOfInput k he]
    exact .broken hk
  | cons d ds => exact .same _

/-- what does not stand in front of the token for the end does not stand in front of nothing -/
theorem head?_append_nil {ds : List Token} {e : Token} {P : Token → Prop} (h : ∀ u ∈ (ds ++ [e]).head?, P u) :
    ∀ u ∈ (ds ++ []).head?, P u := by
  cases ds with
  | nil => exact fun u hu => by cases hu
  | cons d ds => exact h

/-- **The last segment without the token for the end.** -/
theorem Segment.dry {seg : List Token} {e : Token} {r : Reading} (h : Segment seg [e] r) (he : e.kind = .endOfInput) :
    ∃ r', Segment seg [] r' ∧ Dries e r r' := by
  cases h with
  | binding _ hk hn ha hv hs => exact ⟨_, .binding [] hk hn ha hv hs, .same _⟩
  | stray hu hd => exact ⟨_, .stray hu hd.dry, .same _⟩
  | unnamed hk hu hd => exact ⟨_, .unnamed hk (head?_append_nil hu) hd.dry, dries_missing (.inl rfl) he _⟩
  | unassigned hk hn hu hd =>
    exact ⟨_, .unassigned hk hn (head?_append_nil hu) hd.dry, dries_missing (.inr rfl) he _⟩
  | unclosed hk hn ha hv _ => exact ⟨_, .unclosed hk hn ha hv (fun t ht => by cases ht), .same _⟩

/-- the last segment of a division stands in front of what follows it, and may be read in another way where something
else follows -/
theorem Divides.of_concat {post seg : List Token} {r : Reading} {ps : List (List Token × Reading)}
    (h : Divides post (ps ++ [(seg, r)])) (post' : List Token) :
    Segment seg post r ∧ ∀ r', Segment seg post' r' → Divides post' (ps ++ [(seg, r')]) := by
  induction ps with
  | nil =>
    cases h with
    | cons hseg _ => exact ⟨hseg, fun r' h' => .cons h' .nil⟩
  | cons p ps ih =>
    rw [List.cons_append] at h
    cases h with
    | cons hseg hps =>
      obtain ⟨hlast, hother⟩ := ih hps
      refine ⟨hlast, fun r' h' => .cons (hseg.of_cut (.inl ?_)) (hother r' h')⟩
      -- the tokens are the same, however the last of them are read
      have hhead : ∀ (r'' : Reading) (ts : List Token),
          ((ps ++ [(seg, r'')]).flatMap Prod.fst ++ ts).head? = (ps.flatMap Prod.fst ++ seg).head? := by
        intro r'' ts
        have hne : ps.flatMap Prod.fst ++ seg ≠ [] := List.append_ne_nil_of_right_ne_nil _ hlast.ne_nil
        rw [List.flatMap_append, List.flatMap_singleton, List.head?_append_of_ne_nil _ hne]
      exact (hhead r' post').trans (hhead r post).symm

/-- **A division without the token for the end.** It has the same statements and the same errors, but for the last error
if a let breaks off at the end. -/
theorem Divides.dry {e : Token} {ps : List (List Token × Reading)} (h : Divides [e] ps) (he : e.kind = .endOfInput) :
    ∃ qs, Divides [] qs ∧ qs.flatMap Prod.fst = ps.flatMap Prod.fst ∧ statementsOf qs = statementsOf ps ∧
      (errorsOf qs = errorsOf ps ∨ ∃ es k, (k = .identifier ∨ k = .assign) ∧ errorsOf qs = es ++ [ranOut] ∧
        errorsOf ps = es ++ [brokenOff k e]) := by
  rcases List.eq_nil_or_concat ps with rfl | ⟨lead, ⟨seg, r⟩, rfl⟩
  · exact ⟨[], .nil, rfl, rfl, .inl rfl⟩
  · rw [List.concat_eq_append] at h ⊢
    obtain ⟨hlast, hother⟩ := h.of_concat []
    obtain ⟨r', hdry, hdries⟩ := hlast.dry he
    refine ⟨_, hother r' hdry, by simp only [List.flatMap_append, List.flatMap_singleton], ?_⟩
    simp only [statementsOf_append, errorsOf_append]
    cases hdries with
    | same => exact ⟨rfl, .inl rfl⟩
    | broken hk => exact ⟨rfl, .inr ⟨errorsOf lead, _, hk, rfl, rfl⟩⟩

/-! ## Token lists -/

/-- **The token for the end is a barrier, and not needed.** Whatever stands behind it, the same program is read; then the
parser holds that token and has pulled none behind it, and reading once more gives an empty program and changes nothing.
Without it, the statements are the same, and so are the errors, but for the last one if a let breaks off at the end: it
says that the input ran out instead of blaming the token for the end. -/
theorem end_is_barrier {pre : List Token} {e : Token} (hpre : ∀ t ∈ pre, t.kind ≠ .endOfInput)
    (he : e.kind = .endOfInput) (post : List Token) :
    Parser.programFrom (.ofSource (pre ++ e :: post)) = (Program.ofTokens (pre ++ [e]), ⟨some e, post⟩) ∧
      Parser.programFrom ⟨some e, post⟩ = (.empty, ⟨some e, post⟩) ∧
      (Program.ofTokens pre).statements = (Program.ofTokens (pre ++ [e])).statements ∧
      ((Program.ofTokens pre).errors = (Program.ofTokens (pre ++ [e])).errors ∨
        ∃ (es : List ParseError) (k : Kind), (k = .identifier ∨ k = .assign) ∧
          (Program.ofTokens pre).errors = es ++ [⟨"unexpected end of input", none⟩] ∧
          (Program.ofTokens (pre ++ [e])).errors =
            es ++ [⟨"expected a '" ++ k.name ++ "' token but got 'EOF'", some e.location⟩]) := by
  have hend : AtEnd [e] := atEnd_singleton he
  have hend' : AtEnd (e :: post) := fun t ht => by cases ht; exact he
  obtain ⟨ps, hps, hflat⟩ := exists_division hpre hend
  obtain ⟨qs, hqs, hflat', hstatements, herrors⟩ := hps.dry he
  have hbarrier := ofTokens_of_divides hps hflat hpre hend
  have hps' : Divides (e :: post) ps := hps.of_head? rfl
  have hbehind := ofTokens_of_divides hps' hflat hpre hend'
  have hdry := ofTokens_of_divides hqs (hflat'.trans hflat) hpre fun t ht => by cases ht
  rw [List.append_nil] at hdry
  refine ⟨Prod.ext ?_ ?_, ?_, ?_, ?_⟩
  · exact Program.eq_of_node (p := Program.ofTokens (pre ++ e :: post)) (hbehind.1.trans hbarrier.1.symm)
      (hbehind.2.trans hbarrier.2.symm)
  · obtain ⟨os, hloop, -⟩ := Parser.exists_loop (.ofSource (pre ++ e :: post))
    refine TokenStream.eq_of_lookahead ?_ hloop.lookahead
    rw [Parser.pending_programFrom, TokenStream.pending_ofSource, TokenSource.drain_list]
    exact (front_back_append hpre hend').2
  · rw [Parser.programFrom_eq]
    simp only [TokenStream.next?, he, ↓reduceIte]
    rfl
  · refine List.map_injective_iff.2 Binding.node_injective ?_
    rw [hdry.1, hbarrier.1, hstatements]
  · rw [hdry.2, hbarrier.2]
    exact herrors

/-- a let statement and a let without a name, with a let behind the token for the end -/
theorem end_is_barrier_of_let :
    let word : Token := ⟨.letWord, "let", ⟨1, 9⟩⟩
    let name : Token := ⟨.identifier, "x", ⟨1, 4⟩⟩
    let stop : Token := ⟨.endOfInput, "", ⟨1, 12⟩⟩
    let pre : List Token := [word, name, ⟨.assign, "=", ⟨1, 6⟩⟩, ⟨.semicolon, ";", ⟨1, 7⟩⟩, word]
    (∀ t ∈ pre, t.kind ≠ .endOfInput) ∧ stop.kind = .endOfInput ∧
      Parser.programFrom (.ofSource (pre ++ [stop, word])) =
        (⟨[⟨word, name⟩], [⟨"expected a 'Identifier' token but got 'EOF'", some ⟨1, 12⟩⟩]⟩, ⟨some stop, [word]⟩) ∧
      Program.ofTokens pre = ⟨[⟨word, name⟩], [⟨"unexpected end of input", none⟩]⟩ := by
  intro word name stop pre
  have hpre : ∀ t ∈ pre, t.kind ≠ .endOfInput := by decide
  obtain ⟨hbarrier, -, hstatements, -⟩ := end_is_barrier hpre (e := stop) rfl [word]
  have hprogram : Program.ofTokens (pre ++ [stop]) =
      ⟨[⟨word, name⟩], [⟨"expected a 'Identifier' token but got 'EOF'", some ⟨1, 12⟩⟩]⟩ := by decide +kernel
  have hdry : (Program.ofTokens pre).errors = [⟨"unexpected end of input", none⟩] := by decide +kernel
  rw [hprogram] at hbarrier hstatements
  exact ⟨hpre, rfl, hbarrier, congrArg₂ Program.mk hstatements hdry⟩

end LetFront
