/-
The order of statements and errors. Tokens stand one behind the other in a source, and a program goes through them from
the first to the last: its statements begin at later and later tokens, and its errors blame later and later ones, even
though a token that one error blames may be left for the next statement to begin with. An error without a location can
only be the last: it means that a let statement was still open at the end of the source.

`suspects ts`: the tokens an error may blame from here on; a let or the end that stands at the front cannot be blamed
again.

Main statements: `pairwise_tokens`, tokens are at increasing locations; `Segment.exists_suspects` and
`Divides.exists_suspects`, whom the errors of a segment and of a whole division blame; `Divides.unlocated`, when an
error has no location; `errors_ordered`, all of it for a source.
-/
import LetFront.Proofs.Program.Blame
import LetFront.Proofs.Token.Tiling

namespace LetFront

/-! ## Locations in reading order -/

/-- locations are ordered by line, and on a line by column -/
instance : Preorder Location where
  le l m := l.line < m.line ∨ l.line = m.line ∧ l.column ≤ m.column
  lt l m := l.line < m.line ∨ l.line = m.line ∧ l.column < m.column
  le_refl l := .inr ⟨rfl, Int.le_refl l.column⟩
  le_trans _ _ _ _ _ := by omega
  lt_iff_le_not_ge _ _ := by omega

theorem Location.lt_after (l : Location) (c : Char) : l < l.after c := by
  unfold after
  split
  · exact .inl (Int.lt_succ l.line)
  · exact .inr ⟨rfl, Int.lt_succ l.column⟩

theorem Location.le_past (l : Location) (cs : List Char) : l ≤ l.past cs := by
  induction cs generalizing l with
  | nil => exact le_refl l
  | cons c cs ih => exact (l.lt_after c).le.trans (ih _)

theorem Location.lt_past (l : Location) {cs : List Char} (h : cs ≠ []) : l < l.past cs := by
  obtain ⟨c, cs, rfl⟩ := List.exists_cons_of_ne_nil h
  exact (l.lt_after c).trans_le (le_past _ cs)

theorem Layout.le_location {lay : Layout} {l : Location} {t : Token} (h : t ∈ lay.tokens l) : l ≤ t.location := by
  induction lay generalizing l with
  | last g =>
    rw [List.mem_singleton.1 h]
    exact l.le_past g
  | next g x rest ih =>
    rcases List.mem_cons.1 h with rfl | h
    · exact l.le_past g
    · calc l ≤ l.past g := l.le_past g
        _ ≤ (l.past g).past x.text := Location.le_past _ _
        _ ≤ t.location := ih h

theorem Layout.Grammatical.pairwise_tokens {lay : Layout} (h : lay.Grammatical) (l : Location) :
    (lay.tokens l).Pairwise fun t u => t.location < u.location := by
  induction h generalizing l with
  | last => exact List.pairwise_singleton _ _
  | next _ _ hx _ ih =>
    refine List.pairwise_cons.2 ⟨?_, ih _⟩
    intro u hu
    exact (Location.lt_past _ hx.text_ne_nil).trans_le (le_location hu)

/-- **Tokens stand one behind the other**, that for the end included. -/
theorem pairwise_tokens (source : String) : (tokens source).Pairwise fun t u => t.location < u.location := by
  obtain ⟨lay, hlay, htext⟩ := exists_layout source.toList
  rw [tokens_of_layout hlay htext]
  exact hlay.pairwise_tokens .start

/-! ## Whom errors blame -/

/-- the tokens an error may blame from here on -/
def suspects : List Token → List Token
  | [] => []
  | t :: ts => if t.kind = .endOfInput ∨ t.kind = .letWord then ts else t :: ts

theorem suspects_sublist (ts : List Token) : (suspects ts).Sublist ts := by
  cases ts with
  | nil => exact List.Sublist.refl []
  | cons t ts =>
    rw [suspects]
    split
    · exact List.sublist_cons_self t ts
    · exact List.Sublist.refl _

theorem suspects_boundary {t : Token} (ts : List Token) (h : t.kind = .endOfInput ∨ t.kind = .letWord) :
    suspects (t :: ts) = ts := if_pos h

theorem suspects_other {t : Token} (ts : List Token) (hlet : t.kind ≠ .letWord) (hend : t.kind ≠ .endOfInput) :
    suspects (t :: ts) = t :: ts := if_neg (not_or.2 ⟨hend, hlet⟩)

theorem location_missing (k : Kind) (rest : List Token) : (missing k rest).location = rest.head?.map Token.location := by
  cases rest <;> rfl

/-- a token that is missed is either dropped, or a boundary and then no suspect any more -/
theorem Dropped.head?_append_sublist {ds after vs : List Token} (h : Dropped ds after)
    (hvs : vs.Sublist (suspects after)) : ((ds ++ after).head?.toList ++ vs).Sublist (ds ++ after) := by
  cases ds with
  | nil =>
    cases after with
    | nil => exact hvs
    | cons t ts =>
      rw [suspects_boundary ts (h.atBoundary t rfl)] at hvs
      exact hvs.cons_cons t
  | cons d ds =>
    have hafter : vs.Sublist (ds ++ after) := (hvs.trans (suspects_sublist after)).trans (List.sublist_append_right _ _)
    exact hafter.cons_cons d

/-- the location a segment blames, if any -/
def Reading.locations : Reading → List Location
  | .ok _ => []
  | .error e => e.location.toList

/-- **A segment blames a suspect**, and what is blamed behind it comes later. -/
theorem Segment.exists_suspects {seg after vs : List Token} {r : Reading} (h : Segment seg after r)
    (hend : ∀ t ∈ seg, t.kind ≠ .endOfInput) (hvs : vs.Sublist (suspects after)) :
    ∃ us : List Token, us.Sublist (suspects (seg ++ after)) ∧
      us.map Token.location = r.locations ++ vs.map Token.location := by
  have hafter : ∀ ts, vs.Sublist (ts ++ after) := fun ts =>
    (hvs.trans (suspects_sublist after)).trans (List.sublist_append_right ts after)
  cases h with
  | binding _ hk _ _ _ _ =>
    rw [List.cons_append, suspects_boundary _ (.inr hk)]
    exact ⟨vs, hafter _, rfl⟩
  | @stray u ds _ hu _ =>
    rw [List.cons_append, suspects_other _ hu (hend u List.mem_cons_self)]
    exact ⟨u :: vs, (hafter ds).cons_cons u, rfl⟩
  | @unnamed k ds _ hk _ hd =>
    rw [List.cons_append, suspects_boundary _ (.inr hk)]
    refine ⟨_, hd.head?_append_sublist hvs, ?_⟩
    rw [Reading.locations, location_missing]
    cases (ds ++ after).head? <;> rfl
  | @unassigned k n ds _ hk _ _ hd =>
    rw [List.cons_append, suspects_boundary _ (.inr hk)]
    refine ⟨_, (hd.head?_append_sublist hvs).cons n, ?_⟩
    rw [Reading.locations, location_missing]
    cases (ds ++ after).head? <;> rfl
  | unclosed hk _ _ _ _ =>
    rw [List.cons_append, suspects_boundary _ (.inr hk)]
    exact ⟨vs, hafter _, rfl⟩

/-- **A division blames its tokens in order.** The locations of its errors are those of tokens that come one after the
other. -/
theorem Divides.exists_suspects {post : List Token} {ps : List (List Token × Reading)} (h : Divides post ps)
    (hend : ∀ t ∈ ps.flatMap Prod.fst, t.kind ≠ .endOfInput) :
    ∃ us : List Token, us.Sublist (suspects (ps.flatMap Prod.fst ++ post)) ∧
      us.map Token.location = (errorsOf ps).filterMap ParseError.location := by
  induction h with
  | nil => exact ⟨[], List.nil_sublist _, rfl⟩
  | @cons seg r ps hseg _ ih =>
    simp only [List.flatMap_cons, List.mem_append] at hend
    obtain ⟨vs, hvs, hlater⟩ := ih fun t ht => hend t (.inr ht)
    obtain ⟨us, hus, hlocations⟩ := hseg.exists_suspects (fun t ht => hend t (.inl ht)) hvs
    refine ⟨us, by rwa [List.flatMap_cons, List.append_assoc], ?_⟩
    rw [hlocations, hlater]
    cases r with
    | ok n => rfl
    | error e => cases he : e.location <;> simp [Reading.locations, errorsOf, he]

/-! ## Where statements begin -/

theorem Divides.segment {post : List Token} {ps : List (List Token × Reading)} (h : Divides post ps) :
    ∀ p ∈ ps, ∃ after, Segment p.1 after p.2 := by
  induction h with
  | nil => exact List.forall_mem_nil _
  | cons hseg _ ih => exact List.forall_mem_cons.2 ⟨⟨_, hseg⟩, ih⟩

/-- the statements of some segments begin at tokens of theirs that come one after the other -/
theorem keywords_sublist {ps : List (List Token × Reading)} {bs : List Binding}
    (hps : ∀ p ∈ ps, ∃ after, Segment p.1 after p.2) (hbs : bs.map Binding.node = statementsOf ps) :
    (bs.map Binding.keyword).Sublist (ps.flatMap Prod.fst) := by
  induction ps generalizing bs with
  | nil =>
    rw [List.map_eq_nil_iff.1 hbs]
    exact List.Sublist.refl []
  | cons p ps ih =>
    obtain ⟨seg, r⟩ := p
    obtain ⟨⟨after, hseg⟩, hrest⟩ := List.forall_mem_cons.1 hps
    cases r with
    | error e => exact (ih hrest hbs).trans (List.sublist_append_right seg _)
    | ok n =>
      obtain ⟨b, bs', rfl, rfl, hlater⟩ := List.map_eq_cons_iff.1 hbs
      obtain ⟨a, v, s, rfl, -, -⟩ := hseg.of_node
      exact ((ih hrest hlater).trans (List.sublist_append_right _ _)).cons_cons b.keyword

/-! ## Errors without a location -/

/-- a segment without a location to blame is a let statement that the end of the source breaks off -/
theorem Segment.unlocated {seg after : List Token} {e : ParseError} (h : Segment seg after (.error e))
    (hafter : after ≠ []) (he : e.location = none) :
    e = ⟨"unexpected end of input", none⟩ ∧ AtEnd after ∧ ∃ k n a v, seg = k :: n :: a :: v ∧ k.kind = .letWord ∧
      n.kind = .identifier ∧ a.kind = .assign ∧ ∀ t ∈ v, t.kind ≠ .semicolon := by
  have hhead : ∀ (k : Kind) (ds : List Token), (missing k (ds ++ after)).location ≠ none := by
    intro k ds
    rw [location_missing, Ne, Option.map_eq_none_iff, List.head?_eq_none_iff]
    exact List.append_ne_nil_of_right_ne_nil ds hafter
  cases h with
  | stray => cases he
  | unnamed => exact absurd he (hhead _ _)
  | unassigned => exact absurd he (hhead _ _)
  | unclosed hk hn ha hv hend => exact ⟨rfl, hend, _, _, _, _, rfl, hk, hn, ha, hv⟩

/-- **An error without a location ends a division**: there is none, or the last segment breaks off. -/
theorem Divides.unlocated {post : List Token} {ps : List (List Token × Reading)} (h : Divides post ps)
    (hpost : post ≠ []) (hend : ∀ t ∈ ps.flatMap Prod.fst, t.kind ≠ .endOfInput) :
    (∀ e ∈ errorsOf ps, e.location ≠ none) ∨
      ∃ qs k n a v, ps = qs ++ [(k :: n :: a :: v, .error ⟨"unexpected end of input", none⟩)] ∧
        (∀ e ∈ errorsOf qs, e.location ≠ none) ∧ k.kind = .letWord ∧ n.kind = .identifier ∧ a.kind = .assign ∧
        ∀ t ∈ v, t.kind ≠ .semicolon := by
  induction h with
  | nil => exact .inl (List.forall_mem_nil _)
  | @cons seg r ps hseg hps ih =>
    simp only [List.flatMap_cons, List.mem_append] at hend
    have hlater := ih fun t ht => hend t (.inr ht)
    have hafter : ps.flatMap Prod.fst ++ post ≠ [] := List.append_ne_nil_of_right_ne_nil _ hpost
    cases r with
    | ok n =>
      refine hlater.imp_right ?_
      rintro ⟨qs, k, m, a, v, rfl, hqs, hkinds⟩
      exact ⟨(seg, .ok n) :: qs, k, m, a, v, rfl, hqs, hkinds⟩
    | error e =>
      by_cases he : e.location = none
      · obtain ⟨rfl, hatEnd, k, n, a, v, rfl, hkinds⟩ := hseg.unlocated hafter he
        -- nothing but the end follows, so this was the last segment
        have hlast : ps = [] := by
          cases hps with
          | nil => rfl
          | @cons seg' r' ps' hseg' _ =>
            obtain ⟨t, ts, rfl⟩ := List.exists_cons_of_ne_nil hseg'.ne_nil
            exact absurd (hatEnd t rfl) (hend t (.inr List.mem_cons_self))
        subst hlast
        exact .inr ⟨[], k, n, a, v, rfl, List.forall_mem_nil _, hkinds⟩
      · rcases hlater with hall | ⟨qs, k, n, a, v, rfl, hqs, hkinds⟩
        · exact .inl (List.forall_mem_cons.2 ⟨he, hall⟩)
        · exact .inr ⟨(seg, .error e) :: qs, k, n, a, v, rfl, List.forall_mem_cons.2 ⟨he, hqs⟩, hkinds⟩

/-! ## Sources -/

/-- `k` begins a let statement that the end of the source breaks off: it has a name and an equals sign, and there is no
semicolon behind them -/
def BreaksOffAt (source : String) (k : Token) : Prop :=
  ∃ ps n a v, Divides (back (tokens source)) (ps ++ [(k :: n :: a :: v, .error ⟨"unexpected end of input", none⟩)]) ∧
    ps.flatMap Prod.fst ++ k :: n :: a :: v = front (tokens source) ∧ k.kind = .letWord ∧ n.kind = .identifier ∧
    a.kind = .assign ∧ ∀ t ∈ v, t.kind ≠ .semicolon

theorem pairwise_errors (source : String) :
    ((Program.ofString source).errors.filterMap ParseError.location).Pairwise (· < ·) := by
  obtain ⟨ps, hps, hflat, -, herrors⟩ := exists_division_ofString source
  obtain ⟨us, hus, hlocations⟩ := hps.exists_suspects fun t ht => kind_ne_of_mem_front (hflat ▸ ht)
  rw [hflat, front_append_back] at hus
  rw [herrors, ← hlocations]
  exact List.pairwise_map.2 ((pairwise_tokens source).sublist (hus.trans (suspects_sublist _)))

theorem pairwise_statements (source : String) :
    ((Program.ofString source).statements.map fun b => b.keyword.location).Pairwise (· < ·) := by
  obtain ⟨ps, hps, hflat, hstatements, -⟩ := exists_division_ofString source
  have hsub := keywords_sublist hps.segment hstatements
  rw [hflat] at hsub
  have hfront : (front (tokens source)).Sublist (tokens source) := List.takeWhile_sublist _
  have hkeywords := (pairwise_tokens source).sublist (hsub.trans hfront)
  rw [List.pairwise_map] at hkeywords ⊢
  exact hkeywords

/-- an error without a location is the last, and blames a statement behind all that were read -/
theorem breaksOff_of_unlocated {source : String} {before after : List ParseError} {e : ParseError}
    (h : (Program.ofString source).errors = before ++ e :: after) (he : e.location = none) :
    after = [] ∧ (∀ f ∈ before, f.location ≠ none) ∧ e.message = "unexpected end of input" ∧
      ∃ k, BreaksOffAt source k ∧ ∀ b ∈ (Program.ofString source).statements, b.keyword.location < k.location := by
  obtain ⟨ps, hps, hflat, hstatements, herrors⟩ := exists_division_ofString source
  have hback : back (tokens source) ≠ [] := by
    obtain ⟨ts, last, htokens, hts, hlast⟩ := exists_tokens_end source
    rw [htokens, (front_back_append hts (atEnd_singleton hlast)).2]
    exact List.cons_ne_nil _ _
  rw [herrors] at h
  rcases hps.unlocated hback (fun t ht => kind_ne_of_mem_front (hflat ▸ ht)) with
    hall | ⟨qs, k, n, a, v, rfl, hqs, hk, hn, ha, hv⟩
  · exact absurd he (hall e (by simp [h]))
  rw [errorsOf_append] at h
  have hlast : after = [] := by
    rcases List.eq_nil_or_concat after with hnil | ⟨after', f, rfl⟩
    · exact hnil
    · rw [List.concat_eq_append, ← List.cons_append, ← List.append_assoc] at h
      obtain ⟨hinit, -⟩ := List.append_inj' h rfl
      exact absurd he (hqs e (by simp [hinit]))
  subst hlast
  obtain ⟨rfl, hlast⟩ := List.append_inj' h rfl
  obtain rfl := List.singleton_inj.1 hlast
  rw [statementsOf_append] at hstatements
  have hkeywords := keywords_sublist (fun p hp => hps.segment p (List.mem_append_left _ hp))
    (hstatements.trans (List.append_nil _))
  simp only [List.flatMap_append, List.flatMap_cons, List.flatMap_nil, List.append_nil] at hflat
  refine ⟨rfl, hqs, rfl, k, ⟨qs, n, a, v, hps, hflat, hk, hn, ha, hv⟩, ?_⟩
  intro b hb
  -- the statements are among the segments in front of `k`
  have hpairwise := pairwise_tokens source
  rw [← front_append_back (tokens source), ← hflat, List.append_assoc] at hpairwise
  exact (List.pairwise_append.1 hpairwise).2.2 _ (hkeywords.subset (List.mem_map_of_mem hb)) k List.mem_cons_self

/-- **Errors and statements are in order.** In the program of a source, the locations of the errors increase, and a
located error blames a token of the source that stands there. An error without a location says that the input ended, is
the only one and the last, and comes of a let statement that the end of the source breaks off, behind all statements
that were read. The locations of the statements increase too. -/
theorem errors_ordered (source : String) :
    ((Program.ofString source).errors.filterMap ParseError.location).Pairwise (· < ·) ∧
      (∀ e ∈ (Program.ofString source).errors, ∀ place, e.location = some place →
        ∃ t ∈ tokens source, t.location = place ∧ t.BlamedBy e) ∧
      (∀ before e after, (Program.ofString source).errors = before ++ e :: after → e.location = none →
        after = [] ∧ (∀ f ∈ before, f.location ≠ none) ∧ e.message = "unexpected end of input" ∧
          ∃ k, BreaksOffAt source k ∧
            ∀ b ∈ (Program.ofString source).statements, b.keyword.location < k.location) ∧
      ((Program.ofString source).statements.map fun b => b.keyword.location).Pairwise (· < ·) := by
  refine ⟨pairwise_errors source, ?_, ?_, pairwise_statements source⟩
  · intro e he place hplace
    rcases exists_blamed_of_mem_errors he with rfl | ⟨t, ht, hblame⟩
    · cases hplace
    · exact ⟨t, ht, Option.some.inj (hblame.location.symm.trans hplace), hblame⟩
  · intro before e after h he
    exact breaksOff_of_unlocated h he

end LetFront
