/-
Filling a template again. A template that some arguments fill may fail to be filled by others, or put something else into
its holes; how far that can go is a matter of how the holes are written.

A flat template has no holes in its format specifications and asks for no attributes. Whether a text can be laid out by a
specification does not depend on the text, so only a position may be off the end of another argument, and longer arguments
fill the template too.
A whole template does nothing with its arguments but put them in, so what it becomes is related to what it was as the
arguments are.

Main statements: `mem_of_mem_readFrom`, the pieces of a template are made of its characters; `exists_fill`, holes that can
be filled again one by one; `exists_format_of_isFlat` and `exists_format_of_isWhole`, such templates.
-/
import Mathlib.Data.List.TakeWhile
import Mathlib.Tactic
import LetFront.Text.Template

namespace LetFront.Text

/-- a step and then another succeed if each does in turn -/
theorem bind_eq_ok_iff {ε α β : Type} {x : Except ε α} {f : α → Except ε β} {b : β} :
    (x >>= f) = .ok b ↔ ∃ a, x = .ok a ∧ f a = .ok b := by
  cases x <;> simp [bind, Except.bind]

/-- **A specification is for any text or for none.** -/
theorem exists_layOut {text spec shown : List Char} (h : layOut text spec = .ok shown) (text' : List Char) :
    ∃ shown', layOut text' spec = .ok shown' := by
  obtain ⟨f, hread, hf⟩ := bind_eq_ok_iff.1 h
  cases hfault : f.textFault? with
  | some fault =>
    rw [hfault] at hf
    cases hf
  | none =>
    refine ⟨f.pad (f.cut text'), bind_eq_ok_iff.2 ⟨f, hread, ?_⟩⟩
    rw [hfault]
    rfl

namespace Template

/-! ## Characters -/

def Field.chars (f : Field) : List Char := f.name ++ f.spec

def Piece.chars : Piece → List Char
  | char c => [c]
  | field f => f.chars
  | fault _ => []

/-- what the reader has kept of a hole -/
def Place.chars : Place → List Char
  | text => []
  | opened => []
  | closed => []
  | naming chars _ => chars
  | marked name => name
  | converted name _ => name
  | spec name _ _ chars => name ++ chars

namespace Place

theorem subset_of_inName {name : List Char} {place' : Place} {c : Char} {piece? : Option Piece}
    (h : inName name c = .ok (piece?, place')) :
    piece?.toList.flatMap Piece.chars ++ place'.chars ⊆ name ++ [c] := by
  unfold inName at h
  split_ifs at h <;> cases h <;> simp [Place.chars, Piece.chars, Field.chars]

/-- what a reader keeps or lets out was kept before, or is read -/
theorem subset_of_next {place place' : Place} {c : Char} {piece? : Option Piece}
    (h : place.next c = .ok (piece?, place')) :
    piece?.toList.flatMap Piece.chars ++ place'.chars ⊆ place.chars ++ [c] := by
  cases place with
  | text | closed | converted =>
    simp only [next] at h
    split_ifs at h <;> cases h <;> simp [Place.chars, Piece.chars, Field.chars]
  | opened =>
    simp only [next] at h
    split_ifs at h
    · cases h
      simp [Place.chars, Piece.chars]
    · exact subset_of_inName h
  | naming name inBrackets =>
    cases inBrackets with
    | false => exact subset_of_inName h
    | true =>
      cases h
      simp [Place.chars]
  | marked name =>
    cases h
    simp [Place.chars]
  | spec name conversion braces chars =>
    simp only [next] at h
    split_ifs at h
    · cases h
      simp [Place.chars]
    · cases braces <;> cases h <;> simp [Place.chars, Piece.chars, Field.chars]
    · cases h
      simp [Place.chars]

end Place

/-- **The pieces of a template are made of its characters.** -/
theorem mem_of_mem_readFrom {place : Place} {cs : List Char} {piece : Piece} {d : Char}
    (h : piece ∈ readFrom place cs) (hd : d ∈ piece.chars) : d ∈ place.chars ++ cs := by
  induction cs generalizing place with
  | nil =>
    obtain ⟨fault, -, rfl⟩ := List.mem_map.1 h
    cases hd
  | cons c cs ih =>
    rw [readFrom] at h
    cases hnext : place.next c with
    | error fault =>
      rw [hnext, List.mem_singleton] at h
      subst h
      cases hd
    | ok found =>
      obtain ⟨piece?, place'⟩ := found
      have hsubset := Place.subset_of_next hnext
      have hfront : d ∈ piece?.toList.flatMap Piece.chars ++ place'.chars → d ∈ place.chars ++ c :: cs := by
        intro hmem
        have hread := hsubset hmem
        simp only [List.mem_append, List.mem_cons] at hread ⊢
        tauto
      rw [hnext] at h
      rcases List.mem_append.1 h with hpiece | hrest
      · exact hfront (List.mem_append_left _ (List.mem_flatMap.2 ⟨piece, hpiece, hd⟩))
      · rcases List.mem_append.1 (ih hrest) with hkept | hrest
        · exact hfront (List.mem_append_right _ hkept)
        · exact List.mem_append_right _ (List.mem_cons_of_mem _ hrest)

/-! ## Holes -/

/-- **Holes that can be filled again one by one** can be filled again in their template. -/
theorem exists_fill {members : Members} {args args' : List String}
    {expand expand' : Numbering → List Char → Except TemplateFault (List Char × Numbering)}
    {R : List Char → List Char → Prop} (hnil : R [] [])
    (happend : ∀ s s' t t', R s s' → R t t' → R (s ++ t) (s' ++ t')) {pieces : List Piece}
    (hchar : ∀ c, .char c ∈ pieces → R [c] [c])
    (hfield : ∀ f, .field f ∈ pieces → ∀ way value way', f.fill members args expand way = .ok (value, way') →
      ∃ value', f.fill members args' expand' way = .ok (value', way') ∧ R value value')
    {way way' : Numbering} {text : List Char} (h : fill members args expand way pieces = .ok (text, way')) :
    ∃ text', fill members args' expand' way pieces = .ok (text', way') ∧ R text text' := by
  induction pieces generalizing way way' text with
  | nil =>
    obtain ⟨rfl, rfl⟩ := Prod.mk.inj (Except.ok.inj h)
    exact ⟨[], rfl, hnil⟩
  | cons piece pieces ih =>
    have ih' := @ih (fun c hc => hchar c (List.mem_cons_of_mem _ hc)) fun f hf => hfield f (List.mem_cons_of_mem _ hf)
    cases piece with
    | char c =>
      obtain ⟨⟨rest, way₁⟩, hrest, heq⟩ := bind_eq_ok_iff.1 h
      obtain ⟨rfl, rfl⟩ := Prod.mk.inj (Except.ok.inj heq)
      obtain ⟨rest', hrest', hR⟩ := ih' hrest
      exact ⟨c :: rest', bind_eq_ok_iff.2 ⟨_, hrest', rfl⟩, happend [c] [c] _ _ (hchar c List.mem_cons_self) hR⟩
    | field f =>
      obtain ⟨⟨value, way₁⟩, hvalue, h⟩ := bind_eq_ok_iff.1 h
      obtain ⟨⟨rest, way₂⟩, hrest, heq⟩ := bind_eq_ok_iff.1 h
      obtain ⟨rfl, rfl⟩ := Prod.mk.inj (Except.ok.inj heq)
      obtain ⟨value', hvalue', hRvalue⟩ := hfield f List.mem_cons_self _ _ _ hvalue
      obtain ⟨rest', hrest', hR⟩ := ih' hrest
      refine ⟨value' ++ rest', bind_eq_ok_iff.2 ⟨_, hvalue', ?_⟩, happend _ _ _ _ hRvalue hR⟩
      exact bind_eq_ok_iff.2 ⟨_, hrest', rfl⟩
    | fault fault => cases h

/-- the same for a template -/
theorem exists_format {members : Members} {template message : String} {args args' : List String}
    {R : List Char → List Char → Prop}
    (hnil : R [] []) (happend : ∀ s s' t t', R s s' → R t t' → R (s ++ t) (s' ++ t'))
    (hchar : ∀ c ∈ template.toList, R [c] [c])
    (hfield : ∀ f, .field f ∈ read template →
      ∀ way value way', f.fill members args (expand members args 1) way = .ok (value, way') →
        ∃ value', f.fill members args' (expand members args' 1) way = .ok (value', way') ∧ R value value')
    (h : format members template args = .ok message) :
    ∃ message', format members template args' = .ok message' ∧ R message.toList message'.toList := by
  rw [format_eq] at h
  cases hfill : fill members args (expand members args 1) .undecided (read template) with
  | error fault =>
    rw [hfill] at h
    cases h
  | ok filled =>
    rw [hfill] at h
    obtain rfl := Except.ok.inj h
    obtain ⟨text', htext', hR⟩ := exists_fill hnil happend
      (fun c hc => hchar c (mem_of_mem_readFrom hc List.mem_cons_self)) hfield hfill
    refine ⟨String.ofList text', ?_, ?_⟩
    · rw [format_eq, read, htext']
      rfl
    · rwa [String.toList_ofList, String.toList_ofList]

/-! ## Names without points -/

/-- a longer value has a character at a position, too, and it is one character again -/
theorem exists_characterAt {value value' position found : List Char} (hle : value.length ≤ value'.length)
    (h : characterAt value position = .ok found) :
    ∃ found', characterAt value' position = .ok found' ∧ found.length = found'.length := by
  unfold characterAt at h ⊢
  split at h
  · cases h
  · cases h
  · next i hi =>
    cases hget : value[i]? with
    | none =>
      rw [hget] at h
      cases h
    | some c =>
      rw [hget] at h
      obtain rfl := Except.ok.inj h
      obtain ⟨hlt, -⟩ := List.getElem?_eq_some_iff.1 hget
      obtain ⟨c', hget'⟩ : ∃ c', value'[i]? = some c' := ⟨_, List.getElem?_eq_getElem (by omega)⟩
      exact ⟨[c'], by rw [hget'], rfl⟩

/-- what a name without points asks for is a text, and there is one in longer values, too -/
theorem exists_access {member : List Char → List Char → Except TemplateFault Value} {value value' : List Char}
    {found : Value} {position : Option (List Char)} {cs : List Char} (hcs : '.' ∉ cs) (hle : value.length ≤ value'.length)
    (h : access member value position cs = .ok found) :
    ∃ t t', found = .ofText t ∧ access member value' position cs = .ok (.ofText t') := by
  induction cs generalizing value value' position with
  | nil =>
    rw [access] at h ⊢
    split_ifs at h ⊢
    exact ⟨value, value', (Except.ok.inj h).symm, rfl⟩
  | cons c cs ih =>
    obtain ⟨hc, hcs⟩ := not_or.1 fun hor => hcs (List.mem_cons.2 hor)
    cases position with
    | none =>
      simp only [access, if_neg (Ne.symm hc)] at h ⊢
      split_ifs at h ⊢
      exact ih hcs hle h
    | some position =>
      simp only [access] at h ⊢
      split_ifs at h ⊢
      · obtain ⟨character, hcharacter, h⟩ := bind_eq_ok_iff.1 h
        obtain ⟨character', hcharacter', hlength⟩ := exists_characterAt hle hcharacter
        obtain ⟨t, t', ht, ht'⟩ := ih hcs (Nat.le_of_eq hlength) h
        exact ⟨t, t', ht, bind_eq_ok_iff.2 ⟨character', hcharacter', ht'⟩⟩
      · exact ih hcs hle h

/-- what a name asks for of changed arguments, if what it asks for behind their number can be found again -/
theorem exists_lookup {members : Members} {args : List String} {f : String → String} {R : List Char → List Char → Prop}
    {name : List Char}
    (haccess : ∀ arg ∈ args, ∀ i found, access (members i) arg.toList none (name.dropWhile (!isAccess ·)) = .ok found →
      ∃ t t', found = .ofText t ∧
        access (members i) (f arg).toList none (name.dropWhile (!isAccess ·)) = .ok (.ofText t') ∧ R t t')
    {way way' : Numbering} {value : Value} (h : lookup members args way name = .ok (value, way')) :
    ∃ t t', value = .ofText t ∧ lookup members (args.map f) way name = .ok (.ofText t', way') ∧ R t t' := by
  obtain ⟨⟨i, way₁⟩, hresolve, h⟩ := bind_eq_ok_iff.1 h
  cases harg : args[i]? with
  | none =>
    simp only [harg] at h
    cases h
  | some arg =>
    simp only [harg] at h
    obtain ⟨found, hfound, heq⟩ := bind_eq_ok_iff.1 h
    obtain ⟨rfl, rfl⟩ := Prod.mk.inj (Except.ok.inj heq)
    obtain ⟨t, t', ht, ht', hR⟩ := haccess arg (List.mem_of_getElem? harg) i found hfound
    refine ⟨t, t', ht, bind_eq_ok_iff.2 ⟨_, hresolve, ?_⟩, hR⟩
    simp only [List.getElem?_map, harg, Option.map_some]
    exact bind_eq_ok_iff.2 ⟨_, ht', rfl⟩

/-! ## Flat templates -/

/-- the holes of a template, in order -/
def fields (template : String) : List Field :=
  (read template).filterMap fun
    | .field f => some f
    | _ => none

theorem mem_fields_iff {template : String} {f : Field} : f ∈ fields template ↔ .field f ∈ read template := by
  constructor
  · intro h
    obtain ⟨piece, hpiece, heq⟩ := List.mem_filterMap.1 h
    cases piece with
    | field _ => exact Option.some.inj heq ▸ hpiece
    | char _ => cases heq
    | fault _ => cases heq
  · exact fun h => List.mem_filterMap.2 ⟨_, h, rfl⟩

/-- a hole whose name has no points and whose specification has no holes -/
def Field.IsFlat (f : Field) : Prop := '.' ∉ f.name ∧ '{' ∉ f.spec

instance (f : Field) : Decidable f.IsFlat := inferInstanceAs (Decidable (_ ∧ _))

/-- a template of such holes -/
def IsFlat (template : String) : Prop := ∀ f ∈ fields template, f.IsFlat

instance (template : String) : Decidable (IsFlat template) := inferInstanceAs (Decidable (∀ f ∈ _, Field.IsFlat f))

/-- what a conversion makes of a text is a text, and it makes one of any text then -/
theorem exists_convert {t : List Char} {conversion : Option Char} {shown : Value}
    (h : convert (.ofText t) conversion = .ok shown) (t' : List Char) :
    ∃ s s', shown = .ofText s ∧ convert (.ofText t') conversion = .ok (.ofText s') := by
  cases conversion with
  | none => exact ⟨t, t', (Except.ok.inj h).symm, rfl⟩
  | some c =>
    unfold convert at h ⊢
    dsimp only at h ⊢
    split_ifs at h ⊢ <;> exact ⟨_, _, (Except.ok.inj h).symm, rfl⟩

theorem mapError_eq_ok_iff {ε ε' α : Type} {x : Except ε α} {g : ε → ε'} {a : α} : x.mapError g = .ok a ↔ x = .ok a := by
  cases x <;> simp [Except.mapError]

/-- a flat hole is filled in three steps -/
theorem Field.IsFlat.fill_eq_ok_iff {f : Field} (hflat : f.IsFlat) {members : Members} {args : List String}
    {expand : Numbering → List Char → Except TemplateFault (List Char × Numbering)} {way way' : Numbering}
    {shown : List Char} :
    f.fill members args expand way = .ok (shown, way') ↔
      ∃ value converted, lookup members args way f.name = .ok (value, way') ∧
        convert value f.conversion = .ok converted ∧ converted.layOut f.spec = .ok shown := by
  have hspec : ∀ way, f.expandSpec expand way = .ok (f.spec, way) := fun _ => if_neg hflat.2
  constructor
  · intro h
    obtain ⟨⟨value, way₁⟩, hlookup, h⟩ := bind_eq_ok_iff.1 h
    obtain ⟨converted, hconvert, h⟩ := bind_eq_ok_iff.1 h
    obtain ⟨⟨spec, way₂⟩, hown, h⟩ := bind_eq_ok_iff.1 h
    obtain ⟨rfl, rfl⟩ := Prod.mk.inj (Except.ok.inj ((hspec way₁).symm.trans hown))
    obtain ⟨shown', hshown, heq⟩ := bind_eq_ok_iff.1 h
    obtain ⟨rfl, rfl⟩ := Prod.mk.inj (Except.ok.inj heq)
    exact ⟨value, converted, hlookup, hconvert, hshown⟩
  · rintro ⟨value, converted, hlookup, hconvert, hshown⟩
    refine bind_eq_ok_iff.2 ⟨_, hlookup, bind_eq_ok_iff.2 ⟨_, hconvert, bind_eq_ok_iff.2 ⟨_, hspec way', ?_⟩⟩⟩
    exact bind_eq_ok_iff.2 ⟨shown, hshown, rfl⟩

/-- **Longer arguments fill a flat template, too.** -/
theorem exists_format_of_isFlat {members : Members} {template message : String} {args : List String}
    {g : String → String} (hflat : IsFlat template) (hlonger : ∀ s ∈ args, s.length ≤ (g s).length)
    (h : format members template args = .ok message) :
    ∃ message', format members template (args.map g) = .ok message' := by
  have hfield : ∀ f, .field f ∈ read template →
      ∀ way shown way', f.fill members args (expand members args 1) way = .ok (shown, way') →
        ∃ shown', f.fill members (args.map g) (expand members (args.map g) 1) way = .ok (shown', way') ∧ True := by
    intro f hf way shown way' hshown
    have hf := hflat f (mem_fields_iff.2 hf)
    have hrest : '.' ∉ f.name.dropWhile (!isAccess ·) := fun hmem => hf.1 ((List.dropWhile_suffix _).mem hmem)
    obtain ⟨value, converted, hlookup, hconvert, hlayOut⟩ := hf.fill_eq_ok_iff.1 hshown
    have haccess : ∀ arg ∈ args, ∀ i found,
        access (members i) arg.toList none (f.name.dropWhile (!isAccess ·)) = .ok found →
          ∃ t t', found = .ofText t ∧
            access (members i) (g arg).toList none (f.name.dropWhile (!isAccess ·)) = .ok (.ofText t') ∧ True := by
      intro arg harg i found hfound
      have hle := hlonger arg harg
      rw [← String.length_toList, ← String.length_toList] at hle
      obtain ⟨t, t', ht, ht'⟩ := exists_access hrest hle hfound
      exact ⟨t, t', ht, ht', trivial⟩
    obtain ⟨t, t', rfl, hlookup', -⟩ := exists_lookup (R := fun _ _ => True) haccess hlookup
    obtain ⟨s, s', rfl, hconvert'⟩ := exists_convert hconvert t'
    obtain ⟨shown', hlayOut'⟩ := exists_layOut (mapError_eq_ok_iff.1 hlayOut) s'
    exact ⟨shown', hf.fill_eq_ok_iff.2 ⟨_, _, hlookup', hconvert', mapError_eq_ok_iff.2 hlayOut'⟩, trivial⟩
  obtain ⟨message', hmessage', -⟩ := exists_format (R := fun _ _ => True) trivial (fun _ _ _ _ _ _ => trivial)
    (fun _ _ => trivial) hfield h
  exact ⟨message', hmessage'⟩

/-! ## Whole templates -/

/-- a hole for an argument as it is -/
structure Field.IsWhole (f : Field) : Prop where
  name : ∀ c ∈ f.name, isAccess c = false
  conversion : f.conversion = none ∨ f.conversion = some 's'
  spec : f.spec = []

/-- a template of such holes -/
def IsWhole (template : String) : Prop := ∀ f ∈ fields template, f.IsWhole

theorem Field.IsWhole.isFlat {f : Field} (h : f.IsWhole) : f.IsFlat := by
  refine ⟨fun hmem => absurd (h.name _ hmem) (by decide), ?_⟩
  rw [h.spec]
  exact List.not_mem_nil

theorem Field.IsWhole.convert_eq {f : Field} (h : f.IsWhole) (t : List Char) :
    convert (.ofText t) f.conversion = .ok (.ofText t) := by
  rcases h.conversion with hnone | hs
  · rw [hnone, convert]
  · rw [hs]
    rfl

theorem isWhole_text {s : String} (h : Unbraced s) : IsWhole s := by
  intro f hf
  rw [mem_fields_iff, read_text h] at hf
  obtain ⟨_, -, heq⟩ := List.mem_map.1 hf
  cases heq

/-- a template with one plain hole -/
theorem isWhole_about {lead tail : String} (hlead : Unbraced lead) (htail : Unbraced tail) :
    IsWhole (lead ++ "\x7b\x7d" ++ tail) := by
  intro f hf
  rw [mem_fields_iff, read_about hlead htail, List.mem_append, List.mem_cons] at hf
  rcases hf with hlead | heq | htail
  · obtain ⟨_, -, heq⟩ := List.mem_map.1 hlead
    cases heq
  · obtain rfl := Piece.field.inj heq
    exact ⟨nofun, .inl rfl, rfl⟩
  · obtain ⟨_, -, heq⟩ := List.mem_map.1 htail
    cases heq

theorem IsWhole.isFlat {template : String} (h : IsWhole template) : IsFlat template := fun f hf => (h f hf).isFlat

/-- **What related arguments make of a whole template is related.** -/
theorem exists_format_of_isWhole {members : Members} {template message : String} {args : List String}
    {g : String → String} {R : List Char → List Char → Prop} (hwhole : IsWhole template) (hnil : R [] [])
    (happend : ∀ s s' t t', R s s' → R t t' → R (s ++ t) (s' ++ t')) (hchar : ∀ c ∈ template.toList, R [c] [c])
    (hargs : ∀ s ∈ args, R s.toList (g s).toList) (h : format members template args = .ok message) :
    ∃ message', format members template (args.map g) = .ok message' ∧ R message.toList message'.toList := by
  refine exists_format hnil happend hchar (fun f hf way shown way' hshown => ?_) h
  have hf := hwhole f (mem_fields_iff.2 hf)
  have hrest : f.name.dropWhile (!isAccess ·) = [] := by
    simpa [List.dropWhile_eq_nil_iff] using hf.name
  have haccess : ∀ arg ∈ args, ∀ i found,
      access (members i) arg.toList none (f.name.dropWhile (!isAccess ·)) = .ok found →
        ∃ t t', found = .ofText t ∧
          access (members i) (g arg).toList none (f.name.dropWhile (!isAccess ·)) = .ok (.ofText t') ∧ R t t' := by
    intro arg harg i found hfound
    rw [hrest] at hfound ⊢
    exact ⟨_, _, (Except.ok.inj hfound).symm, rfl, hargs arg harg⟩
  have hspec : ∀ t, (Value.ofText t).layOut f.spec = .ok t := by
    intro t
    rw [hf.spec, Value.layOut_nil]
  obtain ⟨value, converted, hlookup, hconvert, hlayOut⟩ := hf.isFlat.fill_eq_ok_iff.1 hshown
  obtain ⟨t, t', rfl, hlookup', hR⟩ := exists_lookup haccess hlookup
  obtain rfl := Except.ok.inj ((hf.convert_eq t).symm.trans hconvert)
  obtain rfl := Except.ok.inj ((hspec t).symm.trans hlayOut)
  exact ⟨t', hf.isFlat.fill_eq_ok_iff.2 ⟨_, _, hlookup', hf.convert_eq t', hspec t'⟩, hR⟩

end Template

end LetFront.Text
