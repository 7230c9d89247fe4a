/-
Where the tokens of a source stand. Every token has an offset at which its literal can be read, and its location is the
place of that offset: the line is one more than the line feeds in front of it, and the column counts from the last of
these. Between the literals there are only gaps, and the token for the end stands at the length of the source.

Main statements: `past_start`, walking to an offset arrives at its place; `Tiles.cons`, a token with the gap in front of
it extends a tiling; `exists_tiling`, a grammatical layout is a tiling; `tokens_tile`, the tokens of a source tile it;
`exists_offset_of_mem_tokens`, a token has the place of an offset in its source.
-/
import LetFront.Proofs.Token.Layout

namespace LetFront

/-! ## Places -/

/-- the offset just behind the last line feed, zero if there is none -/
def lineStart (cs : List Char) : ℕ := cs.length - (cs.reverse.takeWhile (· ≠ '\n')).length

/-- the place of the offset `p` in a text -/
def placeAt (cs : List Char) (p : ℕ) : Location := ⟨1 + (cs.take p).count '\n', p - lineStart (cs.take p)⟩

theorem lineStart_le (cs : List Char) : lineStart cs ≤ cs.length := Nat.sub_le _ _

theorem lineStart_feed (cs : List Char) : lineStart (cs ++ ['\n']) = cs.length + 1 := by
  simp [lineStart]

theorem lineStart_concat (cs : List Char) {c : Char} (h : c ≠ '\n') : lineStart (cs ++ [c]) = lineStart cs := by
  simp [lineStart, h]

/-- **Walking keeps the place.** From the start of a source, walking over a text arrives at the place behind it. -/
theorem past_start (cs : List Char) :
    Location.start.past cs = ⟨1 + cs.count '\n', cs.length - lineStart cs⟩ := by
  induction cs using List.reverseRecOn with
  | nil => rfl
  | append_singleton cs c ih =>
    rw [Location.past_append, ih]
    change Location.after _ c = _
    unfold Location.after
    by_cases hc : c = '\n'
    · subst hc
      simp only [↓reduceIte, lineStart_feed, List.count_append, List.count_singleton_self, List.length_append,
        List.length_singleton, Location.mk.injEq]
      omega
    · simp only [hc, ↓reduceIte, lineStart_concat cs hc, List.count_append, List.length_append, List.length_singleton,
        List.count_singleton, beq_iff_eq, Location.mk.injEq]
      omega

theorem placeAt_eq (as bs : List Char) : placeAt (as ++ bs) as.length = Location.start.past as := by
  rw [past_start, placeAt, List.take_left]

/-! ## Tilings -/

/-- the part of a text from the offset `i` up to the offset `j` -/
def between (cs : List Char) (i j : ℕ) : List Char := (cs.take j).drop i

theorem between_append (as bs cs : List Char) :
    between (as ++ (bs ++ cs)) as.length (as.length + bs.length) = bs := by
  rw [between, ← List.append_assoc, ← List.length_append, List.take_left, List.drop_left]

/-- The tokens `ts` are what stands in `cs` from `start` on, the `i`-th of them at the offset `p i`, with gaps around
them. The offset behind the last of them is the length of the text. -/
structure Tiles (cs : List Char) (start : ℕ) (ts : List Token) (p : ℕ → ℕ) : Prop where
  le_first : start ≤ p 0
  last : p ts.length = cs.length
  kind_ne : ∀ t ∈ ts, t.kind ≠ .endOfInput
  literal_ne : ∀ t ∈ ts, t.literal ≠ ""
  literal : ∀ i (h : i < ts.length), between cs (p i) (p i + ts[i].literal.length) = ts[i].literal.toList
  location : ∀ i (h : i < ts.length), ts[i].location = placeAt cs (p i)
  ordered : ∀ i (h : i < ts.length), p i + ts[i].literal.length ≤ p (i + 1)
  lead : IsGap (between cs start (p 0)) (cs.drop (p 0))
  gap : ∀ i (h : i < ts.length), IsGap (between cs (p i + ts[i].literal.length) (p (i + 1))) (cs.drop (p (i + 1)))

/-- a gap to the end is a tiling without tokens -/
theorem Tiles.nil {as g : List Char} {p : ℕ → ℕ} (hg : IsGap g []) (hp : p 0 = as.length + g.length) :
    Tiles (as ++ g) as.length [] p where
  le_first := by omega
  last := by simp [hp]
  kind_ne := by simp
  literal_ne := by simp
  literal := by simp
  location := by simp
  ordered := by simp
  lead := by
    have hbetween := between_append as g []
    rw [List.append_nil] at hbetween
    have hdrop : (as ++ g).drop (as.length + g.length) = [] := List.drop_eq_nil_of_le (by simp)
    rwa [hp, hbetween, hdrop]
  gap := by simp

/-- **One more token.** A token with a gap in front extends a tiling of what stands behind it. -/
theorem Tiles.cons {as g w after : List Char} {k : Kind} {ts : List Token} {p : ℕ → ℕ} (hg : IsGap g (w ++ after))
    (hk : k ≠ .endOfInput) (hw : w ≠ []) (hp : p 0 = as.length + g.length)
    (h : Tiles (as ++ (g ++ (w ++ after))) (as.length + g.length + w.length) ts fun i => p (i + 1)) :
    Tiles (as ++ (g ++ (w ++ after))) as.length
      (⟨k, String.ofList w, Location.start.past (as ++ g)⟩ :: ts) p := by
  have hlen : (String.ofList w).length = w.length := by simp
  have hsplit : as ++ (g ++ (w ++ after)) = (as ++ g) ++ (w ++ after) := (List.append_assoc _ _ _).symm
  have hdrop : (as ++ (g ++ (w ++ after))).drop (as.length + g.length) = w ++ after := by
    rw [hsplit, ← List.length_append, List.drop_left]
  have hlit : between (as ++ (g ++ (w ++ after))) (as.length + g.length) (as.length + g.length + w.length) = w := by
    rw [hsplit, ← List.length_append]
    exact between_append (as ++ g) w after
  have hplace : placeAt (as ++ (g ++ (w ++ after))) (as.length + g.length) = Location.start.past (as ++ g) := by
    rw [hsplit, ← List.length_append]
    exact placeAt_eq _ _
  refine
    { le_first := by omega
      last := h.last
      kind_ne := List.forall_mem_cons.2 ⟨hk, h.kind_ne⟩
      literal_ne := List.forall_mem_cons.2 ⟨by simpa using hw, h.literal_ne⟩
      literal := ?_
      location := ?_
      ordered := ?_
      lead := by rw [hp, between_append, hdrop]; exact hg
      gap := ?_ }
  all_goals
    intro i hi
    cases i with
    | zero => ?_
    | succ i => ?_
  · simp only [List.getElem_cons_zero, hlen, hp, hlit, String.toList_ofList]
  · exact h.literal i (by simpa using hi)
  · simp only [List.getElem_cons_zero, hp, hplace]
  · exact h.location i (by simpa using hi)
  · simp only [List.getElem_cons_zero, hlen, hp]
    exact h.le_first
  · exact h.ordered i (by simpa using hi)
  · simp only [List.getElem_cons_zero, hlen, hp]
    exact h.lead
  · exact h.gap i (by simpa using hi)

/-- without its first token a tiling covers what stands behind that -/
theorem Tiles.tail {cs : List Char} {start : ℕ} {t : Token} {ts : List Token} {p : ℕ → ℕ}
    (h : Tiles cs start (t :: ts) p) : Tiles cs (p 0 + t.literal.length) ts fun i => p (i + 1) where
  le_first := h.ordered 0 (Nat.zero_lt_succ _)
  last := h.last
  kind_ne := fun u hu => h.kind_ne u (List.mem_cons_of_mem t hu)
  literal_ne := fun u hu => h.literal_ne u (List.mem_cons_of_mem t hu)
  literal := fun i hi => h.literal (i + 1) (Nat.succ_lt_succ hi)
  location := fun i hi => h.location (i + 1) (Nat.succ_lt_succ hi)
  ordered := fun i hi => h.ordered (i + 1) (Nat.succ_lt_succ hi)
  lead := h.gap 0 (Nat.zero_lt_succ _)
  gap := fun i hi => h.gap (i + 1) (Nat.succ_lt_succ hi)

theorem Tiles.offset_lt {cs : List Char} {start : ℕ} {ts : List Token} {p : ℕ → ℕ} (h : Tiles cs start ts p) (i : ℕ)
    (hi : i < ts.length) : p i < p (i + 1) := by
  have hord := h.ordered i hi
  have hpos : 0 < ts[i].literal.length := by
    rw [← String.length_toList]
    exact List.length_pos_iff.2 fun hnil => h.literal_ne _ (List.getElem_mem hi) (String.toList_eq_nil_iff.1 hnil)
  omega

theorem Tiles.offset_le {cs : List Char} {start : ℕ} {ts : List Token} {p : ℕ → ℕ} (h : Tiles cs start ts p) {i : ℕ}
    (hi : i ≤ ts.length) : p i ≤ cs.length :=
  Nat.decreasingInduction (motive := fun j _ => p j ≤ cs.length)
    (fun j hj hle => Nat.le_trans (Nat.le_of_lt (h.offset_lt j hj)) hle) (Nat.le_of_eq h.last) hi

/-- there is a character for every token -/
theorem Tiles.length_le {cs : List Char} {start : ℕ} {ts : List Token} {p : ℕ → ℕ} (h : Tiles cs start ts p) :
    ts.length ≤ cs.length := by
  have hle : ∀ i ≤ ts.length, i ≤ p i := by
    intro i
    induction i with
    | zero => exact fun _ => Nat.zero_le _
    | succ i ih => exact fun hi => Nat.succ_le_of_lt ((ih (Nat.le_of_succ_le hi)).trans_lt (h.offset_lt i hi))
  rw [← h.last]
  exact hle _ (Nat.le_refl _)

theorem between_append_drop (cs : List Char) {i j : ℕ} (h : i ≤ j) : between cs i j ++ cs.drop j = cs.drop i := by
  have hdrop : cs.drop j = (cs.drop i).drop (j - i) := by rw [List.drop_drop]; congr 1; omega
  rw [between, List.drop_take, hdrop, List.take_append_drop]

/-- nothing is lost: the literals and the gaps of a tiling, one after the other, are the text -/
theorem Tiles.concat {cs : List Char} {start : ℕ} {ts : List Token} {p : ℕ → ℕ} (h : Tiles cs start ts p) :
    cs.drop start = between cs start (p 0) ++
      (List.ofFn fun i : Fin ts.length =>
        (ts.get i).literal.toList ++ between cs (p i + (ts.get i).literal.length) (p (i + 1))).flatten := by
  induction ts generalizing start p with
  | nil =>
    have hend : cs.drop (p 0) = [] := List.drop_eq_nil_of_le (Nat.le_of_eq h.last.symm)
    rw [← between_append_drop cs h.le_first, hend]
    rfl
  | cons t ts ih =>
    have hlit := h.literal 0 (Nat.zero_lt_succ _)
    rw [List.getElem_cons_zero] at hlit
    calc cs.drop start
        = between cs start (p 0) ++ cs.drop (p 0) := (between_append_drop cs h.le_first).symm
      _ = between cs start (p 0) ++ (t.literal.toList ++ cs.drop (p 0 + t.literal.length)) := by
        rw [← hlit, between_append_drop cs (Nat.le_add_right _ _)]
      _ = _ := by
        rw [ih h.tail]
        simp [List.ofFn_succ]

/-! ## Layouts are tilings -/

/-- the offset of the `i`-th lexeme of a text that begins at the offset `n`, or that of its end -/
def Layout.offset (n : ℕ) : Layout → ℕ → ℕ
  | last g, _ => n + g.length
  | next g _ _, 0 => n + g.length
  | next g x rest, i + 1 => rest.offset (n + g.length + x.text.length) i

/-- **Layouts are tilings.** The tokens of a layout with `as` in front of it tile its text, and the one for the end
stands at the end. -/
theorem exists_tiling {lay : Layout} (h : lay.Grammatical) (as : List Char) :
    ∃ ts, lay.tokens (Location.start.past as) =
        ts ++ [⟨.endOfInput, "", placeAt (as ++ lay.text) (as ++ lay.text).length⟩] ∧
      Tiles (as ++ lay.text) as.length ts (lay.offset as.length) := by
  induction h generalizing as with
  | @last g hg =>
    refine ⟨[], ?_, .nil hg rfl⟩
    have hplace := placeAt_eq (as ++ g) []
    rw [List.append_nil] at hplace
    rw [Layout.text, hplace, Location.past_append]
    rfl
  | @next g x rest hg _ hx _ ih =>
    obtain ⟨ts, htokens, htiles⟩ := ih (as ++ g ++ x.text)
    have htext : as ++ g ++ x.text ++ rest.text = as ++ (Layout.next g x rest).text := by
      simp [Layout.text]
    have hlen : (as ++ g ++ x.text).length = as.length + g.length + x.text.length := by
      simp [Nat.add_assoc]
    rw [htext] at htokens htiles
    rw [hlen] at htiles
    refine ⟨⟨x.kind, String.ofList x.text, Location.start.past (as ++ g)⟩ :: ts, ?_, ?_⟩
    · rw [List.cons_append, ← htokens, Layout.tokens, Location.past_append _ (as ++ g), Location.past_append _ as]
    · exact .cons hg hx.kind_ne hx.text_ne_nil rfl htiles

theorem exists_tokens_tiling (source : String) :
    ∃ ts p, tokens source = ts ++ [⟨.endOfInput, "", placeAt source.toList source.toList.length⟩] ∧
      Tiles source.toList 0 ts p := by
  obtain ⟨lay, hlay, htext⟩ := exists_layout source.toList
  obtain ⟨ts, htokens, htiles⟩ := exists_tiling hlay []
  rw [List.nil_append, htext] at htokens htiles
  exact ⟨ts, lay.offset 0, (tokens_of_layout hlay htext).trans htokens, htiles⟩

/-- the token for the end is the last one, and the only one of its kind -/
theorem exists_tokens_end (source : String) :
    ∃ ts last, tokens source = ts ++ [last] ∧ (∀ t ∈ ts, t.kind ≠ .endOfInput) ∧ last.kind = .endOfInput := by
  obtain ⟨ts, p, htokens, htiles⟩ := exists_tokens_tiling source
  exact ⟨ts, _, htokens, htiles.kind_ne, rfl⟩

/-- the last token of a source is the one for the end, and no other is -/
theorem kinds_of_tokens {source : String} {ts : List Token} {last : Token} (h : tokens source = ts ++ [last]) :
    (∀ t ∈ ts, t.kind ≠ .endOfInput) ∧ last.kind = .endOfInput := by
  obtain ⟨us, u, hus, hkinds, hlast⟩ := exists_tokens_end source
  obtain ⟨rfl, hu⟩ := List.append_inj' (h.symm.trans hus) rfl
  obtain rfl := List.singleton_inj.1 hu
  exact ⟨hkinds, hlast⟩

/-- **Tokens tile their source.** The tokens of a source are some that tile it, none of them empty or for the end, and
then the one for the end. The offsets increase, and the literals with the gaps around them are the source. -/
theorem tokens_tile (source : String) :
    ∃ ts p, tokens source = ts ++ [⟨.endOfInput, "", placeAt source.toList source.toList.length⟩] ∧
      Tiles source.toList 0 ts p ∧ (∀ i < ts.length, p i < p (i + 1)) ∧
      source.toList = between source.toList 0 (p 0) ++
        (List.ofFn fun i : Fin ts.length =>
          (ts.get i).literal.toList ++ between source.toList (p i + (ts.get i).literal.length) (p (i + 1))).flatten := by
  obtain ⟨ts, p, htokens, htiles⟩ := exists_tokens_tiling source
  exact ⟨ts, p, htokens, htiles, htiles.offset_lt, htiles.concat⟩

/-- every token of a source, that for the end included, has the place of an offset in the source -/
theorem exists_offset_of_mem_tokens {source : String} {t : Token} (h : t ∈ tokens source) :
    ∃ p ≤ source.toList.length, t.location = placeAt source.toList p := by
  obtain ⟨ts, p, htokens, htiles⟩ := exists_tokens_tiling source
  rw [htokens] at h
  rcases List.mem_append.1 h with h | h
  · obtain ⟨i, hi, rfl⟩ := List.getElem_of_mem h
    exact ⟨p i, htiles.offset_le (Nat.le_of_lt hi), htiles.location i hi⟩
  · rw [List.mem_singleton.1 h]
    exact ⟨_, Nat.le_refl _, rfl⟩

end LetFront
