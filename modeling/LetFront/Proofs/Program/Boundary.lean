/-
Statement boundaries. Tokens that end with a semicolon are read the same whatever follows: however malformed a
statement in front of it is, recovery is over at the last semicolon, and no error reaches across. So the program of two
sources, the first of which ends with a semicolon, is that of the first and then that of the second.

Where a program stands does not matter to how it is read: the program of tokens that stand farther down is the same
program, farther down.

Main statements: `Segment.of_cut`, a segment that ends with a semicolon does not see what follows; `Divides.append`,
divisions are put one behind the other; `Divides.lower`, they are moved down; `ofString_append_feed`, the program of
two sources with a line feed in between.
-/
import Mathlib
import LetFront.Proofs.Program.Division
import LetFront.Proofs.Token.Concat

namespace LetFront

/-- the tokens end with a semicolon -/
def Terminated (ts : List Token) : Prop := ∃ us s, ts = us ++ [s] ∧ s.kind = .semicolon

theorem Terminated.of_append {ts us : List Token} (h : Terminated (ts ++ us)) (hus : us ≠ []) : Terminated us := by
  obtain ⟨vs, s, heq, hs⟩ := h
  obtain ⟨us, u, rfl⟩ := (List.eq_nil_or_concat us).resolve_left hus
  rw [List.concat_eq_append, ← List.append_assoc] at heq
  obtain ⟨-, heq⟩ := List.append_inj' heq rfl
  obtain rfl := List.singleton_inj.1 heq
  exact ⟨us, u, List.concat_eq_append, hs⟩

theorem Terminated.exists_mem {ts : List Token} (h : Terminated ts) : ∃ t ∈ ts, t.kind = .semicolon := by
  obtain ⟨us, s, rfl, hs⟩ := h
  exact ⟨s, by simp, hs⟩

theorem Terminated.of_cons {t : Token} {ts : List Token} (h : Terminated (t :: ts)) (ht : t.kind ≠ .semicolon) :
    Terminated ts := by
  have hne : ts ≠ [] := by
    rintro rfl
    obtain ⟨u, hu, hs⟩ := h.exists_mem
    rw [List.mem_singleton.1 hu] at hs
    exact ht hs
  exact (show Terminated ([t] ++ ts) from h).of_append hne

theorem Terminated.ne_nil {ts : List Token} (h : Terminated ts) : ts ≠ [] := by
  obtain ⟨us, s, rfl, -⟩ := h
  simp

/-! ## What follows a semicolon does not matter -/

theorem AtBoundary.of_head? {after after' : List Token} (h : AtBoundary after) (hhead : after'.head? = after.head?) :
    AtBoundary after' := by
  intro t ht
  rw [hhead] at ht
  exact h t ht

theorem head?_append_of_cut {ds after after' : List Token}
    (hcut : after'.head? = after.head? ∨ Terminated ds) : (ds ++ after').head? = (ds ++ after).head? := by
  rcases hcut with hhead | hds
  · rw [List.head?_append, List.head?_append, hhead]
  · rw [List.head?_append_of_ne_nil ds hds.ne_nil, List.head?_append_of_ne_nil ds hds.ne_nil]

theorem missing_of_head? (k : Kind) {rest rest' : List Token} (h : rest'.head? = rest.head?) :
    missing k rest' = missing k rest := by
  rw [missing, missing, h]

theorem Dropped.of_cut {ds after after' : List Token} (h : Dropped ds after)
    (hcut : after'.head? = after.head? ∨ Terminated ds) : Dropped ds after' := by
  cases h with
  | through _ hd hs => exact .through after' hd hs
  | upTo hd ha =>
    rcases hcut with hhead | hds
    · exact .upTo hd (ha.of_head? hhead)
    · obtain ⟨t, ht, hsemi⟩ := hds.exists_mem
      exact absurd hsemi (hd t ht).1

/-- **A semicolon shields a segment.** What a segment reads as depends on the first token behind it at most, and on
nothing at all if it ends with a semicolon. -/
theorem Segment.of_cut {seg after after' : List Token} {r : Reading} (h : Segment seg after r)
    (hcut : after'.head? = after.head? ∨ Terminated seg) : Segment seg after' r := by
  cases h with
  | binding _ hk hn ha hv hs => exact .binding after' hk hn ha hv hs
  | stray hu hd => exact .stray hu (hd.of_cut hcut)
  | @unnamed k ds _ hk hu hd =>
    have hcut : after'.head? = after.head? ∨ Terminated ds :=
      hcut.imp_right fun ht => ht.of_cons (by rw [hk]; decide)
    have hhead := head?_append_of_cut hcut
    rw [← missing_of_head? .identifier hhead]
    exact .unnamed hk (by rwa [hhead]) (hd.of_cut hcut)
  | @unassigned k n ds _ hk hn hu hd =>
    have hcut : after'.head? = after.head? ∨ Terminated ds :=
      hcut.imp_right fun ht => (ht.of_cons (by rw [hk]; decide)).of_cons (by rw [hn]; decide)
    have hhead := head?_append_of_cut hcut
    rw [← missing_of_head? .assign hhead]
    exact .unassigned hk hn (by rwa [hhead]) (hd.of_cut hcut)
  | @unclosed k n a v _ hk hn ha hv he =>
    rcases hcut with hhead | ht
    · refine .unclosed hk hn ha hv fun t ht => ?_
      rw [hhead] at ht
      exact he t ht
    · -- the value has no semicolon, so the segment does not end with one
      have hv' : Terminated v :=
        ((ht.of_cons (by rw [hk]; decide)).of_cons (by rw [hn]; decide)).of_cons (by rw [ha]; decide)
      obtain ⟨t, ht, hsemi⟩ := hv'.exists_mem
      exact absurd hsemi (hv t ht)

/-- **Divisions one behind the other.** A division of tokens that end with a semicolon goes on as one of any others. -/
theorem Divides.append {post post' : List Token} {ps qs : List (List Token × Reading)} (h : Divides post ps)
    (hps : ps.flatMap Prod.fst = [] ∨ Terminated (ps.flatMap Prod.fst)) (hqs : Divides post' qs) :
    Divides post' (ps ++ qs) := by
  induction h with
  | nil => exact hqs
  | @cons seg r ps hseg _ ih =>
    rw [List.flatMap_cons] at hps
    have hterm : Terminated (seg ++ ps.flatMap Prod.fst) :=
      hps.resolve_left fun hnil => hseg.ne_nil (List.append_eq_nil_iff.1 hnil).1
    by_cases hlast : ps.flatMap Prod.fst = []
    · rw [hlast, List.append_nil] at hterm
      exact .cons (hseg.of_cut (.inr hterm)) (ih (.inl hlast))
    · have hhead : ((ps ++ qs).flatMap Prod.fst ++ post').head? = (ps.flatMap Prod.fst ++ post).head? := by
        rw [List.flatMap_append, List.append_assoc, List.head?_append_of_ne_nil _ hlast,
          List.head?_append_of_ne_nil _ hlast]
      exact .cons (hseg.of_cut (.inl hhead)) (ih (.inr (hterm.of_append hlast)))

/-! ## Farther down -/

def ParseError.lower (d : ℤ) (e : ParseError) : ParseError := { e with location := e.location.map (Location.lower d) }

mutual

/-- a tree whose tokens stand `d` lines farther down -/
def Node.lower (d : ℤ) : Node → Node
  | .placeholder => .placeholder
  | .identifier token value => .identifier (token.lower d) value
  | .integer token value => .integer (token.lower d) value
  | .float token value => .float (token.lower d) value
  | .boolean token value => .boolean (token.lower d) value
  | .unary token right => .unary (token.lower d) (right.lower d)
  | .binary token left right => .binary (token.lower d) (left.lower d) (right.lower d)
  | .call token function arguments => .call (token.lower d) (function.lower d) (Node.lowerAll d arguments)
  | .letStatement token name value => .letStatement (token.lower d) (name.lower d) (value.lower d)
  | .program statements errors => .program (Node.lowerAll d statements) (errors.map (ParseError.lower d))

def Node.lowerAll (d : ℤ) : List Node → List Node
  | [] => []
  | n :: ns => n.lower d :: Node.lowerAll d ns

end

def Binding.lower (d : ℤ) (b : Binding) : Binding := ⟨b.keyword.lower d, b.name.lower d⟩

def Reading.lower (d : ℤ) : Reading → Reading
  | .ok n => .ok (n.lower d)
  | .error e => .error (e.lower d)

def Program.lower (d : ℤ) (p : Program) : Program :=
  ⟨p.statements.map (Binding.lower d), p.errors.map (ParseError.lower d)⟩

/-- a program and another one behind it -/
def Program.append (p q : Program) : Program := ⟨p.statements ++ q.statements, p.errors ++ q.errors⟩

theorem Binding.node_injective : Function.Injective Binding.node := by
  rintro ⟨k, n⟩ ⟨k', n'⟩ h
  obtain ⟨rfl, hname, -⟩ := Node.letStatement.inj h
  obtain ⟨rfl, -⟩ := Node.identifier.inj hname
  rfl

/-- a program is given by its tree -/
theorem Program.eq_of_node {p q : Program} (hs : p.statements.map Binding.node = q.statements.map Binding.node)
    (he : p.errors = q.errors) : p = q := by
  obtain ⟨bs, es⟩ := p
  obtain rfl : bs = q.statements := List.map_injective_iff.2 Binding.node_injective hs
  obtain rfl : es = q.errors := he
  rfl

/-- what holds of the kinds of some tokens holds of them farther down -/
theorem forall_mem_lower {ts : List Token} {P : Kind → Prop} (d : ℤ) (h : ∀ t ∈ ts, P t.kind) :
    ∀ t ∈ ts.map (Token.lower d), P t.kind := by
  intro t ht
  obtain ⟨u, hu, rfl⟩ := List.mem_map.1 ht
  exact h u hu

theorem forall_mem_head?_lower {ts : List Token} {P : Kind → Prop} (d : ℤ) (h : ∀ t ∈ ts.head?, P t.kind) :
    ∀ t ∈ (ts.map (Token.lower d)).head?, P t.kind := by
  intro t ht
  cases ts with
  | nil => cases ht
  | cons u us =>
    cases ht
    exact h u rfl

theorem forall_plain_lower {ds : List Token} (d : ℤ) (h : ∀ t ∈ ds, t.Plain) : ∀ t ∈ ds.map (Token.lower d), t.Plain :=
  forall_mem_lower (P := fun k => k ≠ .semicolon ∧ k ≠ .letWord ∧ k ≠ .endOfInput) d h

theorem Dropped.lower {ds after : List Token} (h : Dropped ds after) (d : ℤ) :
    Dropped (ds.map (Token.lower d)) (after.map (Token.lower d)) := by
  cases h with
  | @through ds s _ hd hs =>
    rw [List.map_append, List.map_singleton]
    exact .through _ (forall_plain_lower d hd) hs
  | upTo hd ha =>
    exact .upTo (forall_plain_lower d hd) (forall_mem_head?_lower (P := fun k => k = .endOfInput ∨ k = .letWord) d ha)

theorem missing_lower (k : Kind) (rest : List Token) (d : ℤ) :
    missing k (rest.map (Token.lower d)) = (missing k rest).lower d := by
  cases rest <;> rfl

/-- a segment farther down reads as it does here, farther down -/
theorem Segment.lower {seg after : List Token} {r : Reading} (h : Segment seg after r) (d : ℤ) :
    Segment (seg.map (Token.lower d)) (after.map (Token.lower d)) (r.lower d) := by
  cases h with
  | binding _ hk hn ha hv hs =>
    simp only [List.map_cons, List.map_append, List.map_nil]
    exact .binding _ hk hn ha (forall_mem_lower (P := (· ≠ .semicolon)) d hv) hs
  | stray hu hd => exact .stray hu (hd.lower d)
  | @unnamed k ds _ hk hu hd =>
    change Segment _ _ (.error ((missing .identifier (ds ++ after)).lower d))
    rw [← missing_lower, List.map_append]
    refine .unnamed hk ?_ (hd.lower d)
    rw [← List.map_append]
    exact forall_mem_head?_lower (P := (· ≠ .identifier)) d hu
  | @unassigned k n ds _ hk hn hu hd =>
    change Segment _ _ (.error ((missing .assign (ds ++ after)).lower d))
    rw [← missing_lower, List.map_append]
    refine .unassigned hk hn ?_ (hd.lower d)
    rw [← List.map_append]
    exact forall_mem_head?_lower (P := (· ≠ .assign)) d hu
  | unclosed hk hn ha hv he =>
    exact .unclosed hk hn ha (forall_mem_lower (P := (· ≠ .semicolon)) d hv)
      (forall_mem_head?_lower (P := (· = .endOfInput)) d he)

/-- the segments farther down -/
def lowerAll (d : ℤ) (ps : List (List Token × Reading)) : List (List Token × Reading) :=
  ps.map fun p => (p.1.map (Token.lower d), p.2.lower d)

theorem flatMap_lowerAll (d : ℤ) (ps : List (List Token × Reading)) :
    (lowerAll d ps).flatMap Prod.fst = (ps.flatMap Prod.fst).map (Token.lower d) := by
  simp [lowerAll, List.flatMap_map, List.map_flatMap]

theorem Divides.lower {post : List Token} {ps : List (List Token × Reading)} (h : Divides post ps) (d : ℤ) :
    Divides (post.map (Token.lower d)) (lowerAll d ps) := by
  induction h with
  | nil => exact .nil
  | @cons seg r ps hseg _ ih =>
    refine .cons ?_ ih
    have hlower := hseg.lower d
    rwa [List.map_append, ← flatMap_lowerAll] at hlower

theorem statementsOf_lowerAll (d : ℤ) (ps : List (List Token × Reading)) :
    statementsOf (lowerAll d ps) = (statementsOf ps).map (Node.lower d) := by
  induction ps with
  | nil => rfl
  | cons p ps ih =>
    obtain ⟨seg, r⟩ := p
    cases r with
    | ok n => exact congrArg (n.lower d :: ·) ih
    | error e => exact ih

theorem errorsOf_lowerAll (d : ℤ) (ps : List (List Token × Reading)) :
    errorsOf (lowerAll d ps) = (errorsOf ps).map (ParseError.lower d) := by
  induction ps with
  | nil => rfl
  | cons p ps ih =>
    obtain ⟨seg, r⟩ := p
    cases r with
    | ok n => exact ih
    | error e => exact congrArg (e.lower d :: ·) ih

/-! ## Two sources -/

/-- **Programs one behind the other.** Tokens in front of the end that are none or end with a semicolon are read as they
are alone, and so are the tokens behind them, which stand farther down. -/
theorem ofSource_of_drain {σ : Type} [TokenSource σ] {source source' both : σ} {ts us : List Token} {d : ℤ}
    (hdrain : (TokenSource.drain source).1 = ts ++ us) (hts : ∀ t ∈ ts, t.kind ≠ .endOfInput) (hus : AtEnd us)
    (hboth : (TokenSource.drain both).1 = ts ++ (TokenSource.drain source').1.map (Token.lower d))
    (h : ts = [] ∨ Terminated ts) :
    Program.ofSource both = (Program.ofSource source).append ((Program.ofSource source').lower d) := by
  obtain ⟨ps, hps, hflat, hstatements, herrors⟩ := exists_division_ofSource source
  obtain ⟨qs, hqs, hqflat, hqstatements, hqerrors⟩ := exists_division_ofSource source'
  rw [hdrain, (front_back_append hts hus).1] at hflat
  have hdivides := hps.append (by rwa [hflat]) (hqs.lower d)
  have hend : AtEnd ((back (TokenSource.drain source').1).map (Token.lower d)) :=
    forall_mem_head?_lower (P := (· = .endOfInput)) d (atEnd_back _)
  have hflats : (ps ++ lowerAll d qs).flatMap Prod.fst =
      ts ++ (front (TokenSource.drain source').1).map (Token.lower d) := by
    rw [List.flatMap_append, hflat, flatMap_lowerAll, hqflat]
  have hkinds : ∀ t ∈ (ps ++ lowerAll d qs).flatMap Prod.fst, t.kind ≠ .endOfInput := by
    rw [hflats]
    intro t ht
    rcases List.mem_append.1 ht with ht | ht
    · exact hts t ht
    · exact forall_mem_lower (P := (· ≠ .endOfInput)) d (fun u => kind_ne_of_mem_front) t ht
  rw [← front_append_back (TokenSource.drain source').1, List.map_append, ← List.append_assoc, ← hflats] at hboth
  obtain ⟨hnodes, herrs⟩ := ofSource_of_divides hdivides hend hkinds hboth
  rw [statementsOf_append, statementsOf_lowerAll, ← hstatements, ← hqstatements] at hnodes
  rw [errorsOf_append, errorsOf_lowerAll, ← herrors, ← hqerrors] at herrs
  refine Program.eq_of_node ?_ herrs
  rw [hnodes, Program.append, Program.lower, List.map_append, List.map_map, List.map_map]
  rfl

/-- tokens that are none or end with a semicolon, and another source on the lines below -/
theorem ofString_feed {source : String} {ts : List Token} {last : Token} (source' : String)
    (htokens : tokens source = ts ++ [last]) (h : ts = [] ∨ Terminated ts) :
    Program.ofString (source ++ "\n" ++ source') =
      (Program.ofString source).append ((Program.ofString source').lower (1 + source.toList.count '\n')) := by
  obtain ⟨hts, hlast⟩ := kinds_of_tokens htokens
  exact ofSource_of_drain htokens hts (atEnd_singleton hlast) (tokens_append_feed source' htokens) h

/-- **Errors do not reach across a statement boundary.** If the tokens of a source are none or end with a semicolon,
then the program of this source with another one on the lines below is the program of the first and then that of the
second, as many lines farther down. -/
theorem ofString_append_feed (source source' : String)
    (h : front (tokens source) = [] ∨ Terminated (front (tokens source))) :
    Program.ofString (source ++ "\n" ++ source') =
      (Program.ofString source).append ((Program.ofString source').lower (1 + source.toList.count '\n')) := by
  obtain ⟨ts, last, htokens, hts, hlast⟩ := exists_tokens_end source
  rw [htokens, (front_back_append hts (atEnd_singleton hlast)).1] at h
  exact ofString_feed source' htokens h

/-- a let without a name and one without a value in front, a let without a name and an open one behind -/
theorem ofString_append_feed_of_malformed :
    (front (tokens "let ; // no name\nlet x ;") = [] ∨ Terminated (front (tokens "let ; // no name\nlet x ;"))) ∧
      (Program.ofString ("let ; // no name\nlet x ;" ++ "\n" ++ "let\nlet y = 2")).errors =
        (Program.ofString "let ; // no name\nlet x ;").errors ++
          (Program.ofString "let\nlet y = 2").errors.map (ParseError.lower 2) := by
  have htokens : tokens "let ; // no name\nlet x ;" =
      [⟨.letWord, "let", ⟨1, 0⟩⟩, ⟨.semicolon, ";", ⟨1, 4⟩⟩, ⟨.letWord, "let", ⟨2, 0⟩⟩, ⟨.identifier, "x", ⟨2, 4⟩⟩,
        ⟨.semicolon, ";", ⟨2, 6⟩⟩, ⟨.endOfInput, "", ⟨2, 7⟩⟩] := by cbv
  have h : front (tokens "let ; // no name\nlet x ;") = [] ∨
      Terminated (front (tokens "let ; // no name\nlet x ;")) := by
    rw [htokens]
    exact .inr ⟨[⟨.letWord, "let", ⟨1, 0⟩⟩, ⟨.semicolon, ";", ⟨1, 4⟩⟩, ⟨.letWord, "let", ⟨2, 0⟩⟩,
      ⟨.identifier, "x", ⟨2, 4⟩⟩], ⟨.semicolon, ";", ⟨2, 6⟩⟩, by decide, rfl⟩
  exact ⟨h, by rw [ofString_append_feed _ _ h]; rfl⟩

end LetFront
