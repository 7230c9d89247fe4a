/-
Wording in colour. A template that is filled with plain texts becomes a plain text, if it is plain itself; and if it cannot
be filled, what there is to say of that is plain, too. Painting the snippets of a notice fills its template with other
texts, though. A notice is silent if that adds nothing but escape sequences to its message. It need not be: a width is
counted with the sequences, brackets take a character out of one, and a format specification may come out painted.

`Gives P Q x`: the outcome `x` is a value that satisfies `Q` or an error that satisfies `P`.

Main statements: `gives_format`, what becomes of a plain template; `Notice.IsPlain.isSilent_of_isWhole`, notices that put
their snippets in as they are; `NoticeSource.gives_notice`, a notice from plain texts.
-/
import LetFront.Proofs.Report.Tinting
import LetFront.Proofs.Text.Filling
import LetFront.Report.Step

namespace LetFront

/-! ## Outcomes -/

def Gives {ε α : Type} (P : ε → Prop) (Q : α → Prop) : Except ε α → Prop
  | .ok a => Q a
  | .error e => P e

theorem Gives.bind {ε α β : Type} {P : ε → Prop} {Q : α → Prop} {S : β → Prop} {x : Except ε α} {f : α → Except ε β}
    (h : Gives P Q x) (hf : ∀ a, Q a → Gives P S (f a)) : Gives P S (x >>= f) := by
  cases x with
  | ok a => exact hf a h
  | error e => exact h

theorem Gives.map {ε α β : Type} {P : ε → Prop} {Q : α → Prop} {S : β → Prop} {x : Except ε α} {f : α → β}
    (h : Gives P Q x) (hf : ∀ a, Q a → S (f a)) : Gives P S (f <$> x) := by
  cases x with
  | ok a => exact hf a h
  | error e => exact h

theorem Gives.mapError {ε ε' α : Type} {P : ε → Prop} {S : ε' → Prop} {Q : α → Prop} {x : Except ε α} {g : ε → ε'}
    (h : Gives P Q x) (hg : ∀ e, P e → S (g e)) : Gives S Q (x.mapError g) := by
  cases x with
  | ok a => exact h
  | error e => exact hg e h

/-- a value comes with where it is from -/
theorem Gives.self {ε α : Type} {P : ε → Prop} {Q : α → Prop} {x : Except ε α} (h : Gives P Q x) :
    Gives P (fun a => Q a ∧ x = .ok a) x := by
  cases x with
  | ok a => exact ⟨h, rfl⟩
  | error e => exact h

/-! ## Format specifications -/

namespace Text

/-- what a fault quotes of a specification is plain -/
def FormatFault.IsPlain : FormatFault → Prop
  | invalid spec => LetFront.IsPlain spec
  | separatorWith separator _ => separator ≠ '\x1b'
  | _ => True

namespace FormatSpec

theorem mem_of_readAlignment {cs rest : List Char} {c : Char} {alignment : Option Alignment}
    (h : readAlignment cs = (some c, alignment, rest)) : c ∈ cs := by
  unfold readAlignment at h
  split at h
  · cases h
  · split at h
    · cases h
      exact List.mem_cons_self
    · split at h <;> cases h

theorem of_accept_eq_some {p : Char → Bool} {cs rest : List Char} {c : Char} (h : accept p cs = (some c, rest)) :
    p c = true := by
  unfold accept at h
  split at h
  · cases h
  · split at h
    · next hp =>
      cases h
      exact hp
    · cases h

theorem gives_readNumber (cs : List Char) : Gives FormatFault.IsPlain (fun _ => True) (readNumber cs) := by
  unfold readNumber
  split <;> trivial

theorem gives_readSeparator (cs : List Char) :
    Gives FormatFault.IsPlain (fun found => ∀ c ∈ found.1, c ≠ '\x1b') (readSeparator cs) := by
  unfold readSeparator
  split
  · trivial
  · trivial
  · simp [Gives]
  · simp [Gives]
  · simp [Gives]

theorem gives_readPrecision (cs : List Char) : Gives FormatFault.IsPlain (fun _ => True) (readPrecision cs) := by
  unfold readPrecision
  split
  · refine (gives_readNumber _).bind fun found _ => ?_
    dsimp only
    split <;> trivial
  · trivial

theorem gives_readType {spec : List Char} (h : '\x1b' ∉ spec) (cs : List Char) :
    Gives FormatFault.IsPlain (fun _ => True) (readType spec cs) := by
  unfold readType
  split
  · trivial
  · trivial
  · exact isPlain_ofList h

/-- a plain specification has a plain fill character -/
theorem gives_read {spec : List Char} (h : '\x1b' ∉ spec) :
    Gives FormatFault.IsPlain (fun f => f.fill ≠ '\x1b') (FormatSpec.read spec) := by
  unfold FormatSpec.read
  rcases halignment : readAlignment spec with ⟨fill, alignment, cs⟩
  dsimp only
  rcases accept (fun c => c = '+' || c = '-' || c = ' ') cs with ⟨sign, cs⟩
  dsimp only
  rcases accept (· = 'z') cs with ⟨noNegativeZero, cs⟩
  dsimp only
  rcases accept (· = '#') cs with ⟨alternate, cs⟩
  dsimp only
  rcases hzero : accept (fun c => fill.isNone && c = '0') cs with ⟨zero, cs⟩
  dsimp only
  have hfill : (fill.or zero).getD ' ' ≠ '\x1b' := by
    cases fill with
    | some c =>
      rintro rfl
      exact h (mem_of_readAlignment halignment)
    | none =>
      cases zero with
      | none => decide
      | some c =>
        obtain rfl : c = '0' := by simpa using of_accept_eq_some hzero
        exact show '0' ≠ '\x1b' by decide
  refine (gives_readNumber cs).bind fun ⟨width, cs⟩ _ => ?_
  refine (gives_readSeparator cs).bind fun ⟨separator, cs⟩ hseparator => ?_
  refine (gives_readPrecision cs).bind fun ⟨precision, cs⟩ _ => ?_
  refine (gives_readType h cs).bind fun type _ => ?_
  dsimp only
  split
  · next c hc => exact hseparator c (Option.filter_eq_some_iff.1 hc).1
  · exact hfill

end FormatSpec

theorem gives_layOut {text spec : List Char} (htext : '\x1b' ∉ text) (hspec : '\x1b' ∉ spec) :
    Gives FormatFault.IsPlain ('\x1b' ∉ ·) (layOut text spec) := by
  refine (FormatSpec.gives_read hspec).bind fun f hfill => ?_
  cases hfault : f.textFault? with
  | some fault =>
    unfold FormatSpec.textFault? at hfault
    split_ifs at hfault <;> obtain rfl := Option.some.inj hfault <;> trivial
  | none =>
    have hcut : '\x1b' ∉ f.cut text := by
      unfold FormatSpec.cut
      split
      · exact htext
      · exact fun hmem => htext (List.mem_of_mem_take hmem)
    change '\x1b' ∉ f.pad (f.cut text)
    unfold FormatSpec.pad
    simp only [List.mem_append, List.mem_replicate, not_or]
    exact ⟨⟨fun hmem => hfill hmem.2.symm, hcut⟩, fun hmem => hfill hmem.2.symm⟩

/-! ## Templates -/

/-- what a fault quotes of a template as it is is plain -/
def TemplateFault.IsPlain : TemplateFault → Prop
  | noAttribute name => LetFront.IsPlain name
  | member label text => LetFront.IsPlain label ∧ LetFront.IsPlain text
  | format fault => fault.IsPlain
  | _ => True

namespace Template

/-- a plain text, whatever is with it -/
def Plainly {α : Type} (found : List Char × α) : Prop := '\x1b' ∉ found.1

/-- a value that is shown plainly in every way -/
structure Value.IsPlain (v : Value) : Prop where
  text : '\x1b' ∉ v.text
  quoted : '\x1b' ∉ v.quoted
  asciiQuoted : '\x1b' ∉ v.asciiQuoted
  layOut : ∀ spec, '\x1b' ∉ spec → Gives TemplateFault.IsPlain ('\x1b' ∉ ·) (v.layOut spec)

theorem Value.isPlain_ofText {cs : List Char} (h : '\x1b' ∉ cs) : (ofText cs).IsPlain where
  text := h
  quoted := by
    have hquoted := isPlain_quoted (String.ofList cs)
    rw [Text.quoted, String.toList_ofList] at hquoted
    exact isPlain_ofList_iff.1 hquoted
  asciiQuoted := not_mem_asciiQuotedChars cs
  layOut _ hspec := (gives_layOut h hspec).mapError fun _ hfault => hfault

/-- the attributes of plain texts are shown plainly, or there is something plain to say -/
def Members.IsPlain (members : Members) : Prop :=
  ∀ i cs path, '\x1b' ∉ cs → '\x1b' ∉ path → Gives TemplateFault.IsPlain Value.IsPlain (members i cs path)

theorem gives_readNumber (cs : List Char) : Gives TemplateFault.IsPlain (fun _ => True) (readNumber cs) := by
  unfold readNumber
  split <;> trivial

theorem gives_resolve (way : Numbering) (front : List Char) :
    Gives TemplateFault.IsPlain (fun _ => True) (resolve way front) := by
  unfold resolve
  split
  · cases way <;> trivial
  · have hnumber := gives_readNumber front
    split
    · next hread =>
      rw [hread] at hnumber
      exact hnumber
    · trivial
    · cases way <;> trivial

theorem isPlain_of_attributeFault? {name : List Char} (h : '\x1b' ∉ name) {fault : TemplateFault}
    (hfault : attributeFault? name = some fault) : fault.IsPlain := by
  unfold attributeFault? at hfault
  split_ifs at hfault
  · obtain rfl := Option.some.inj hfault
    trivial
  · obtain rfl := Option.some.inj hfault
    exact isPlain_ofList h

theorem gives_characterAt {value : List Char} (h : '\x1b' ∉ value) (position : List Char) :
    Gives TemplateFault.IsPlain ('\x1b' ∉ ·) (characterAt value position) := by
  unfold characterAt
  have hnumber := gives_readNumber position
  split
  · next hread =>
    rw [hread] at hnumber
    exact hnumber
  · split <;> trivial
  · split
    · trivial
    · next c hc =>
      intro hmem
      exact h (List.mem_singleton.1 hmem ▸ List.mem_of_getElem? hc)

theorem gives_convert {value : Value} (h : value.IsPlain) (conversion : Option Char) :
    Gives TemplateFault.IsPlain Value.IsPlain (convert value conversion) := by
  cases conversion with
  | none => exact h
  | some c =>
    unfold convert
    dsimp only
    split_ifs
    · exact h
    · exact Value.isPlain_ofText h.text
    · exact Value.isPlain_ofText h.quoted
    · exact Value.isPlain_ofText h.asciiQuoted
    · trivial

section Holes

variable {members : Members} {args : List String}
  {expand : Numbering → List Char → Except TemplateFault (List Char × Numbering)} (hmembers : members.IsPlain)
  (hargs : ∀ s ∈ args, IsPlain s)

include hmembers

theorem gives_access {value cs : List Char} (hvalue : '\x1b' ∉ value) (hcs : '\x1b' ∉ cs) (i : ℕ)
    (position : Option (List Char)) :
    Gives TemplateFault.IsPlain Value.IsPlain (access (members i) value position cs) := by
  induction cs generalizing value position with
  | nil =>
    unfold access
    split
    · exact Value.isPlain_ofText hvalue
    · trivial
  | cons c cs ih =>
    have hrest : '\x1b' ∉ cs := fun hmem => hcs (List.mem_cons_of_mem _ hmem)
    cases position with
    | none =>
      simp only [access]
      split_ifs
      · split
        · next fault hfault =>
          exact isPlain_of_attributeFault? (fun hmem => hrest ((List.takeWhile_sublist _).subset hmem)) hfault
        · exact hmembers i value _ hvalue hcs
      · exact ih hvalue hrest _
      · trivial
    | some position =>
      simp only [access]
      split_ifs
      · exact (gives_characterAt hvalue position).bind fun value' hvalue' => ih hvalue' hrest none
      · exact ih hvalue hrest _

include hargs

theorem gives_lookup {name : List Char} (hname : '\x1b' ∉ name) (way : Numbering) :
    Gives TemplateFault.IsPlain (fun found => found.1.IsPlain) (lookup members args way name) := by
  refine (gives_resolve way _).bind fun ⟨i, way'⟩ _ => ?_
  dsimp only
  split
  · trivial
  · next arg harg =>
    have hrest : '\x1b' ∉ name.dropWhile (!isAccess ·) := fun hmem => hname ((List.dropWhile_suffix _).mem hmem)
    have harg := hargs arg (List.mem_of_getElem? harg)
    exact (gives_access hmembers harg hrest i none).bind fun value hvalue => hvalue

/-- a plain hole is filled plainly, if its specification is -/
theorem gives_field {f : Field} (hf : '\x1b' ∉ f.chars)
    (hexpand : ∀ way cs, '\x1b' ∉ cs → Gives TemplateFault.IsPlain Plainly (expand way cs)) (way : Numbering) :
    Gives TemplateFault.IsPlain Plainly (f.fill members args expand way) := by
  obtain ⟨hname, hspec⟩ := not_or.1 fun hor => hf (List.mem_append.2 hor)
  refine (gives_lookup hmembers hargs hname way).bind fun ⟨value, way'⟩ hvalue => ?_
  refine (gives_convert hvalue f.conversion).bind fun converted hconverted => ?_
  have hown : Gives TemplateFault.IsPlain Plainly (f.expandSpec expand way') := by
    unfold Field.expandSpec
    split
    · exact hexpand way' _ hspec
    · exact hspec
  refine hown.bind fun ⟨spec, way''⟩ hspec => ?_
  exact (hconverted.layOut spec hspec).bind fun shown hshown => hshown

theorem gives_fill {pieces : List Piece}
    (hexpand : ∀ way cs, '\x1b' ∉ cs → Gives TemplateFault.IsPlain Plainly (expand way cs))
    (hpieces : ∀ piece ∈ pieces, '\x1b' ∉ piece.chars) (hfault : ∀ fault, .fault fault ∈ pieces → fault.IsPlain)
    (way : Numbering) : Gives TemplateFault.IsPlain Plainly (fill members args expand way pieces) := by
  induction pieces generalizing way with
  | nil => exact List.not_mem_nil
  | cons piece pieces ih =>
    obtain ⟨hpiece, hpieces⟩ := List.forall_mem_cons.1 hpieces
    have ih := ih hpieces fun fault hmem => hfault fault (List.mem_cons_of_mem _ hmem)
    cases piece with
    | char c =>
      refine (ih way).bind fun ⟨text, way'⟩ htext => ?_
      intro hmem
      rcases List.mem_cons.1 hmem with heq | hmem
      · exact hpiece (List.mem_singleton.2 heq)
      · exact htext hmem
    | field f =>
      refine (gives_field hmembers hargs hpiece hexpand way).bind fun ⟨value, way'⟩ hvalue => ?_
      refine (ih way').bind fun ⟨text, way''⟩ htext => ?_
      exact fun hmem => (List.mem_append.1 hmem).elim hvalue htext
    | fault fault => exact hfault fault List.mem_cons_self

end Holes

/-- a reader lets faults out as errors only, and what is wrong with the form of a template quotes nothing -/
theorem gives_next (place : Place) (c : Char) :
    Gives TemplateFault.IsPlain (fun found => ∀ fault, .fault fault ∉ found.1.toList) (place.next c) := by
  have hname : ∀ chars, Gives TemplateFault.IsPlain (fun found => ∀ fault, .fault fault ∉ found.1.toList)
      (Place.inName chars c) := by
    intro chars
    unfold Place.inName
    split_ifs <;> simp [Gives, TemplateFault.IsPlain]
  cases place with
  | text | closed | converted =>
    simp only [Place.next]
    split_ifs <;> simp [Gives, TemplateFault.IsPlain]
  | marked name => simp [Place.next, Gives]
  | opened =>
    simp only [Place.next]
    split_ifs
    · simp [Gives]
    · exact hname []
  | naming chars inBrackets =>
    cases inBrackets with
    | false => exact hname chars
    | true => simp [Place.next, Gives]
  | spec name conversion braces chars =>
    simp only [Place.next]
    split_ifs
    · simp [Gives]
    · cases braces <;> simp [Gives]
    · simp [Gives]

theorem isPlain_of_mem_readFrom {place : Place} {cs : List Char} {fault : TemplateFault}
    (h : .fault fault ∈ readFrom place cs) : fault.IsPlain := by
  induction cs generalizing place with
  | nil =>
    obtain ⟨_, hend, heq⟩ := List.mem_map.1 h
    obtain rfl := Piece.fault.inj heq
    cases place <;> simp [Place.endFault?] at hend <;> subst hend <;> trivial
  | cons c cs ih =>
    have hgives := gives_next place c
    rw [readFrom] at h
    cases hnext : place.next c with
    | error fault' =>
      rw [hnext] at h hgives
      obtain rfl := Piece.fault.inj (List.mem_singleton.1 h)
      exact hgives
    | ok found =>
      rw [hnext] at h hgives
      exact (List.mem_append.1 h).elim (fun hpiece => absurd hpiece (hgives fault)) ih

section

variable {members : Members} {args : List String} (hmembers : members.IsPlain) (hargs : ∀ s ∈ args, IsPlain s)

include hmembers hargs

/-- what a plain template is filled with by plain texts, inside any number of holes -/
theorem gives_expand (levels : ℕ) (way : Numbering) {cs : List Char} (h : '\x1b' ∉ cs) :
    Gives TemplateFault.IsPlain Plainly (expand members args levels way cs) := by
  induction levels generalizing way cs with
  | zero => trivial
  | succ levels ih =>
    have hpieces : ∀ piece ∈ readFrom .text cs, '\x1b' ∉ piece.chars := fun piece hpiece hmem =>
      h (mem_of_mem_readFrom hpiece hmem)
    exact gives_fill hmembers hargs (fun way cs hcs => ih way hcs) hpieces (fun _ => isPlain_of_mem_readFrom) way

/-- **What becomes of a plain template**: plain texts make a plain text of it, or there is something plain to say. -/
theorem gives_format {template : String} (htemplate : IsPlain template) :
    Gives TemplateFault.IsPlain IsPlain (format members template args) :=
  (gives_expand hmembers hargs 2 .undecided htemplate).map fun _ hfilled => isPlain_ofList hfilled

end

end Template

end Text

/-! ## Failures -/

namespace Failure

/-- a character is named plainly, for the escape character is below any other that is named by itself -/
theorem isPlain_named {low high : ℕ} (hlow : '\x1b'.toNat < low) (c : Char) : LetFront.IsPlain (named low high c) := by
  unfold named
  split
  · next h =>
    rw [LetFront.IsPlain, String.toList_singleton, List.mem_singleton]
    rintro rfl
    omega
  · have hdigits := Text.all_isPrintable_hexDigits 7 (c.toNat / 16)
    have hlast := Text.isPrintable_hexDigit (Nat.mod_lt c.toNat (by decide : 16 > 0))
    refine (show LetFront.IsPlain "\\x" by decide).append (isPlain_ofList fun hmem => ?_)
    rcases List.mem_append.1 hmem with hmem | hmem
    · exact absurd (List.all_eq_true.1 hdigits _ ((List.dropWhile_suffix _).mem hmem)) (by decide)
    · exact absurd (List.mem_singleton.1 hmem ▸ hlast) (by decide)

theorem isPlain_formatText {fault : Text.FormatFault} (h : fault.IsPlain) : LetFront.IsPlain (formatText fault) := by
  cases fault with
  | invalid spec =>
    change LetFront.IsPlain ("Invalid format specifier '" ++ spec ++ "' for object of type 'str'")
    exact h.between (by decide) (by decide)
  | separatorWith separator type =>
    have hseparator : LetFront.IsPlain (String.singleton separator) := by
      rw [LetFront.IsPlain, String.toList_singleton, List.mem_singleton]
      exact fun heq => h heq.symm
    have hfront : LetFront.IsPlain ("Cannot specify '" ++ String.singleton separator ++ "' with '") :=
      hseparator.between (by decide) (by decide)
    exact (hfront.append (isPlain_named (by decide) type)).append (by decide)
  | unknownType type =>
    exact (isPlain_named (by decide) type).between (show LetFront.IsPlain "Unknown format code '" by decide) (by decide)
  | _ => decide +kernel

theorem isPlain_templateText {fault : Text.TemplateFault} (h : fault.IsPlain) :
    LetFront.IsPlain (templateText fault) := by
  cases fault with
  | noArgument i =>
    change LetFront.IsPlain ("Replacement index " ++ toString i ++ " out of range for positional args tuple")
    exact (isPlain_nat i).between (by decide) (by decide)
  | named key => exact isPlain_quoted key
  | noAttribute name =>
    change LetFront.IsPlain ("'str' object has no attribute '" ++ name ++ "'")
    exact h.between (by decide) (by decide)
  | member label text => exact h.2
  | unknownConversion c =>
    exact (show LetFront.IsPlain "Unknown conversion specifier " by decide).append (isPlain_named (by decide) c)
  | format fault => exact isPlain_formatText h
  | _ => decide +kernel

theorem isPlain_template {fault : Text.TemplateFault} (h : fault.IsPlain) : (template fault).IsPlain where
  label := by
    change LetFront.IsPlain (templateLabel fault)
    cases fault with
    | member label text => exact h.1
    | _ =>
      simp only [templateLabel]
      decide
  text := isPlain_templateText h

end Failure

/-! ## Notices -/

namespace Notice

variable {n : Notice}

/-- a notice without the escape character -/
structure IsPlain (n : Notice) : Prop where
  members : n.members.IsPlain
  template : LetFront.IsPlain n.template
  snippets : ∀ s ∈ n.snippets, LetFront.IsPlain s

theorem IsPlain.subject (h : n.IsPlain) : LetFront.IsPlain n.subject := h.snippets _ (List.head_mem n.snippets_ne)

theorem wording_unpainted (n : Notice) : n.wording (emphasise false) = .ok n.text := by
  have hsnippets : n.snippets.map (emphasise false) = n.snippets := List.map_id _
  rw [wording, hsnippets, n.text_eq]
  rfl

/-- painting the snippets adds nothing but escape sequences to the message -/
def IsSilent (n : Notice) : Prop := ∃ message, n.wording (emphasise true) = .ok message ∧ unpainted message = n.text

/-- **Snippets that are put in as they are** are painted silently. -/
theorem IsPlain.isSilent_of_isWhole (h : n.IsPlain) (hwhole : Text.Template.IsWhole n.template) : n.IsSilent := by
  let R (cs painted : List Char) : Prop := ∀ rest, withoutEscapes (painted ++ rest) = cs ++ withoutEscapes rest
  have happend : ∀ s s' t t', R s s' → R t t' → R (s ++ t) (s' ++ t') := by
    intro s s' t t' hs ht rest
    rw [List.append_assoc, List.append_assoc, hs, ht]
  have hchar : ∀ c ∈ n.template.toList, R [c] [c] := fun c hc rest =>
    withoutEscapes_cons (fun heq => h.template (heq ▸ hc)) rest
  have hsnippets : ∀ s ∈ n.snippets, R s.toList (emphasise true s).toList := fun s hs => tinted_emphasise (h.snippets s hs)
  obtain ⟨message, hformat, hR⟩ :=
    Text.Template.exists_format_of_isWhole hwhole (fun _ => rfl) happend hchar hsnippets n.text_eq
  refine ⟨message, ?_, Tinted.unpainted_eq hR⟩
  rw [wording, hformat]
  rfl

theorem isPlain_noMembers : noMembers.IsPlain := fun _ _ _ _ _ => trivial

theorem isPlain_interrupted : interrupted.IsPlain :=
  ⟨isPlain_noMembers, by decide, List.forall_mem_singleton.2 (by decide)⟩

theorem isSilent_interrupted : interrupted.IsSilent :=
  isPlain_interrupted.isSilent_of_isWhole (Text.Template.isWhole_text (by decide))

theorem isPlain_unknown {f : Failure} (h : f.IsPlain) : (unknown f).IsPlain where
  members := isPlain_noMembers
  template := show LetFront.IsPlain ("unknown error: '" ++ "\x7b\x7d" ++ "'") by decide +kernel
  snippets := List.forall_mem_singleton.2 ((h.label.append (by decide)).append h.text)

theorem isSilent_unknown {f : Failure} (h : f.IsPlain) : (unknown f).IsSilent :=
  (isPlain_unknown h).isSilent_of_isWhole (Text.Template.isWhole_about (by decide) (by decide))

end Notice

namespace NoticeSource

variable {source : NoticeSource}

/-- a notice is made if its snippets fill its template, and there are any -/
theorem notice_eq {text : String}
    (h : Text.Template.format source.members source.template source.snippets = .ok text)
    (hne : source.snippets ≠ []) :
    source.notice = .ok ⟨source.members, source.template, source.snippets, hne, text, h, source.start,
      if source.stop = -1 then (source.snippets.head hne).length else source.stop, source.pointed, source.isInternal⟩ := by
  unfold notice Notice.make
  split
  · next fault hformat => cases h.symm.trans hformat
  · next text' hformat =>
    obtain rfl : text = text' := Except.ok.inj (h.symm.trans hformat)
    rw [dif_neg hne]

/-- a notice keeps what it is made from -/
theorem eq_of_notice {n : Notice} (h : source.notice = .ok n) :
    n.members = source.members ∧ n.template = source.template ∧ n.snippets = source.snippets := by
  unfold notice Notice.make at h
  split at h
  · cases h
  · split at h
    · cases h
    · obtain rfl := Except.ok.inj h
      exact ⟨rfl, rfl, rfl⟩

/-- **A notice from plain texts is plain**, and so is the failure if there can be none. -/
theorem gives_notice (hmembers : source.members.IsPlain) (h : ∀ t ∈ source.texts, IsPlain t) :
    Gives Failure.IsPlain Notice.IsPlain source.notice := by
  obtain ⟨htemplate, hsnippets⟩ := List.forall_mem_cons.1 h
  have hgives := Text.Template.gives_format hmembers hsnippets htemplate
  unfold notice Notice.make
  split
  · next fault hformat =>
    rw [hformat] at hgives
    exact Failure.isPlain_template hgives
  · split
    · exact ⟨by decide, by decide⟩
    · exact ⟨hmembers, htemplate, hsnippets⟩

end NoticeSource

end LetFront
