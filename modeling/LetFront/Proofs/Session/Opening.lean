/-
How opening a session ends. The name for what is typed opens in command-line mode and is reserved otherwise. Any other
path is a file's: a file that cannot be opened ends in a notice, and one that is a text gives the session that text
with its line ends unified. A path with a NUL character and a file that is no text are worded for nobody: what ends the
opening there is no notice but a failure.

Main statements: `Directory.read_cases`, what reading a file gives; `start_outcome`, when opening a session succeeds,
when it ends in a notice, and when in something else; `start_undecodable`, a file of one byte that is no text.
-/
import LetFront.Proofs.Text.Utf8
import LetFront.Session

namespace LetFront

open Text.Utf8 (encode decode decode_eq_ok_iff)

/-- the path names a file of these bytes -/
def Directory.Holds (d : Directory) (path : String) (bytes : List UInt8) : Prop :=
  '\x00' ∉ path.toList ∧ d.files.lookup path = some bytes

theorem Directory.read_of_nul (d : Directory) {path : String} (h : '\x00' ∈ path.toList) :
    d.read path = .error (.failure .nulInPath) := by
  unfold read
  rw [if_pos (List.contains_iff_mem.2 h)]

theorem Directory.read_of_missing {d : Directory} {path : String} (hnul : '\x00' ∉ path.toList)
    (h : d.files.lookup path = none) : d.read path = .error (.notice (.unopened path)) := by
  unfold read
  rw [if_neg (mt List.contains_iff_mem.1 hnul), h]

theorem Directory.read_of_holds {d : Directory} {path : String} {bytes : List UInt8} (h : d.Holds path bytes) :
    d.read path =
      match decode bytes with
      | .error fault => .error (.failure (.undecodable fault))
      | .ok cs => .ok (String.ofList (Text.unifyNewlines cs)) := by
  obtain ⟨hnul, hfile⟩ := h
  unfold read
  rw [if_neg (mt List.contains_iff_mem.1 hnul)]
  exact hfile ▸ rfl

/-- **What reading a file gives.** -/
theorem Directory.read_cases (d : Directory) (path : String) :
    '\x00' ∈ path.toList ∧ d.read path = .error (.failure .nulInPath) ∨
      '\x00' ∉ path.toList ∧ d.files.lookup path = none ∧ d.read path = .error (.notice (.unopened path)) ∨
      (∃ cs, d.Holds path (encode cs) ∧ d.read path = .ok (String.ofList (Text.unifyNewlines cs))) ∨
      ∃ bytes fault, d.Holds path bytes ∧ (∀ cs, bytes ≠ encode cs) ∧
        d.read path = .error (.failure (.undecodable fault)) := by
  by_cases hnul : '\x00' ∈ path.toList
  · exact .inl ⟨hnul, d.read_of_nul hnul⟩
  · cases hfile : d.files.lookup path with
    | none => exact .inr (.inl ⟨hnul, rfl, read_of_missing hnul hfile⟩)
    | some bytes =>
      have hread := read_of_holds ⟨hnul, hfile⟩
      cases hdecode : decode bytes with
      | ok cs =>
        rw [hdecode] at hread
        obtain rfl := decode_eq_ok_iff.1 hdecode
        exact .inr (.inr (.inl ⟨cs, ⟨hnul, hfile⟩, hread⟩))
      | error fault =>
        rw [hdecode] at hread
        refine .inr (.inr (.inr ⟨bytes, fault, ⟨hnul, hfile⟩, fun cs hcs => ?_, hread⟩))
        rw [decode_eq_ok_iff.2 hcs] at hdecode
        cases hdecode

/-! ## When reading a file succeeds, and how it fails -/

theorem Directory.read_eq_ok_iff {d : Directory} {path source : String} :
    d.read path = .ok source ↔
      ∃ cs, d.Holds path (encode cs) ∧ source = String.ofList (Text.unifyNewlines cs) := by
  constructor
  · intro h
    rcases d.read_cases path with ⟨-, hread⟩ | ⟨-, -, hread⟩ | ⟨cs, hfile, hread⟩ | ⟨_, _, _, _, hread⟩
    · rw [hread] at h
      cases h
    · rw [hread] at h
      cases h
    · exact ⟨cs, hfile, Except.ok.inj (h.symm.trans hread)⟩
    · rw [hread] at h
      cases h
  · rintro ⟨cs, hfile, rfl⟩
    rw [read_of_holds hfile, decode_eq_ok_iff.2 rfl]

theorem Directory.read_notice_iff {d : Directory} {path : String} :
    (∃ n, d.read path = .error (.notice n)) ↔ '\x00' ∉ path.toList ∧ d.files.lookup path = none := by
  constructor
  · rintro ⟨n, h⟩
    rcases d.read_cases path with ⟨-, hread⟩ | ⟨hnul, hfile, -⟩ | ⟨_, _, hread⟩ | ⟨_, _, _, _, hread⟩
    · rw [hread] at h
      cases h
    · exact ⟨hnul, hfile⟩
    · rw [hread] at h
      cases h
    · rw [hread] at h
      cases h
  · rintro ⟨hnul, hfile⟩
    exact ⟨_, read_of_missing hnul hfile⟩

theorem Directory.read_failure_iff {d : Directory} {path : String} :
    (∃ halt, d.read path = .error halt ∧ ∀ n, halt ≠ .notice n) ↔
      '\x00' ∈ path.toList ∨ ∃ bytes, d.files.lookup path = some bytes ∧ ∀ cs, bytes ≠ encode cs := by
  constructor
  · rintro ⟨halt, h, hnotice⟩
    rcases d.read_cases path with ⟨hnul, -⟩ | ⟨-, -, hread⟩ | ⟨_, _, hread⟩ | ⟨bytes, _, hfile, hbytes, -⟩
    · exact .inl hnul
    · exact absurd (Except.error.inj (h.symm.trans hread)) (hnotice _)
    · rw [hread] at h
      cases h
    · exact .inr ⟨bytes, hfile.2, hbytes⟩
  · intro h
    rcases d.read_cases path with ⟨-, hread⟩ | ⟨hnul, hfile, -⟩ | ⟨cs, hfile, -⟩ | ⟨-, fault, -, -, hread⟩
    · exact ⟨_, hread, fun n hn => by cases hn⟩
    · rcases h with h | ⟨bytes, h, -⟩
      · exact absurd h hnul
      · rw [hfile] at h
        cases h
    · rcases h with h | ⟨bytes, h, hbytes⟩
      · exact absurd h hfile.1
      · exact absurd (Option.some.inj (h.symm.trans hfile.2)) (hbytes cs)
    · exact ⟨_, hread, fun n hn => by cases hn⟩

/-! ## Opening a session -/

namespace Session

/-- how opening a session ends -/
def opened (d : Directory) (path : String) (isCommandLine : Bool) (r : Reporter) : Except Halt Session :=
  ((start d path isCommandLine).runOn r).1

theorem opened_typed (d : Directory) (r : Reporter) : opened d typedName true r = .ok ⟨typedName, true, ""⟩ := rfl

theorem opened_reserved (d : Directory) (r : Reporter) : opened d typedName false r = .error (.notice .reserved) := rfl

theorem opened_file (d : Directory) {path : String} (h : path ≠ typedName) (isCommandLine : Bool) (r : Reporter) :
    opened d path isCommandLine r = (d.read path).map fun source => ⟨path, isCommandLine, source⟩ := by
  unfold opened start
  simp only [ne_eq, h, not_false_eq_true, ↓reduceIte]
  cases isCommandLine <;> cases d.read path <;> rfl

theorem map_eq_error_iff {α β : Type} {o : Except Halt α} {f : α → β} {halt : Halt} :
    o.map f = .error halt ↔ o = .error halt := by
  cases o with
  | ok a => exact iff_of_false (fun h => by cases h) fun h => by cases h
  | error e => exact ⟨fun h => congrArg Except.error (Except.error.inj h), fun h => h ▸ rfl⟩

theorem map_eq_ok_iff {α β : Type} {o : Except Halt α} {f : α → β} {b : β} :
    o.map f = .ok b ↔ ∃ a, o = .ok a ∧ b = f a := by
  cases o with
  | ok a => exact ⟨fun h => ⟨a, rfl, (Except.ok.inj h).symm⟩, fun ⟨a', ha, hb⟩ => by cases ha; exact hb ▸ rfl⟩
  | error e => exact iff_of_false (fun h => by cases h) fun ⟨_, h, _⟩ => by cases h

/-- **When opening a session succeeds, and how it fails.** It succeeds in command-line mode under the name for what is
typed, without a text, and for a file that is a text, with that text. It ends in a notice where that name is reserved,
and for a path that no file can be opened under. It ends in anything else if and only if the path has a NUL character
or the file is no text. -/
theorem start_outcome (d : Directory) (path : String) (isCommandLine : Bool) (r : Reporter) :
    (∀ s, opened d path isCommandLine r = .ok s ↔
      path = typedName ∧ isCommandLine = true ∧ s = ⟨path, isCommandLine, ""⟩ ∨
      path ≠ typedName ∧ ∃ cs, d.Holds path (encode cs) ∧
        s = ⟨path, isCommandLine, String.ofList (Text.unifyNewlines cs)⟩) ∧
    ((∃ n, opened d path isCommandLine r = .error (.notice n)) ↔
      path = typedName ∧ isCommandLine = false ∨
      path ≠ typedName ∧ '\x00' ∉ path.toList ∧ d.files.lookup path = none) ∧
    ((∃ halt, opened d path isCommandLine r = .error halt ∧ ∀ n, halt ≠ .notice n) ↔
      path ≠ typedName ∧
        ('\x00' ∈ path.toList ∨ ∃ bytes, d.files.lookup path = some bytes ∧ ∀ cs, bytes ≠ encode cs)) := by
  by_cases hpath : path = typedName
  · subst hpath
    cases isCommandLine with
    | true =>
      rw [opened_typed]
      simp only [ne_eq, not_true_eq_false, false_and, or_false, true_and, Except.ok.injEq, reduceCtorEq, exists_false,
        Bool.true_eq_false, and_self, and_true]
      exact fun s => eq_comm
    | false =>
      rw [opened_reserved]
      simp
  · rw [opened_file d hpath]
    simp only [hpath, false_and, false_or, ne_eq, not_false_eq_true, true_and, map_eq_ok_iff, map_eq_error_iff]
    refine ⟨fun s => ⟨?_, ?_⟩, Directory.read_notice_iff, Directory.read_failure_iff⟩
    · rintro ⟨source, hread, rfl⟩
      obtain ⟨cs, hfile, rfl⟩ := Directory.read_eq_ok_iff.1 hread
      exact ⟨cs, hfile, rfl⟩
    · rintro ⟨cs, hfile, rfl⟩
      exact ⟨_, Directory.read_eq_ok_iff.2 ⟨cs, hfile, rfl⟩, rfl⟩

/-- **A file that is no text is not told as a notice**, and neither is a path with a NUL character. -/
theorem start_undecodable :
    opened ⟨[("f", [0xFF])]⟩ "f" false (.new true false) =
        .error (.failure (.undecodable ⟨0xFF, 0, 1, .invalidStart⟩)) ∧
      opened ⟨[]⟩ "\x00" true (.new true false) = .error (.failure .nulInPath) := by
  exact ⟨rfl, rfl⟩

end Session

end LetFront
