/-
The bytes that are a text. Reading UTF-8 gives back the characters that were written, and fails on every other bytes.

`Completes p ws c`: after the bytes that `p` keeps, the bytes `ws` end the character `c`.

Main statements: `encodeChar_of_completes` and `exists_completes`, the bytes of one character; `decode_eq_ok_iff`, those
of a text.
-/
import Mathlib.Tactic
import LetFront.Text.Utf8

namespace LetFront.Text.Utf8

/-- the bytes of a text -/
def encode (cs : List Char) : List UInt8 := cs.flatMap String.utf8EncodeChar

inductive Completes : Partial → List UInt8 → Char → Prop
  | last {p : Partial} {b : UInt8} (hlow : p.low ≤ b.toNat) (hhigh : b.toNat ≤ p.high) (howed : p.owed = 1) :
      Completes p [b] (Char.ofNat (p.push b).value)
  | more {p : Partial} {b : UInt8} {ws : List UInt8} {c : Char} (hlow : p.low ≤ b.toNat) (hhigh : b.toNat ≤ p.high)
      (howed : p.owed ≠ 1) (h : Completes (p.push b) ws c) : Completes p (b :: ws) c

/-! ## Reading the bytes of a character -/

theorem decodeFrom_completes {p : Partial} {ws : List UInt8} {c : Char} (h : Completes p ws c) (pos : ℕ)
    (bs : List UInt8) :
    decodeFrom pos (some p) (ws ++ bs) = (c :: ·) <$> decodeFrom (pos + ws.length) none bs := by
  induction h generalizing pos with
  | last hlow hhigh howed =>
    rw [List.singleton_append, decodeFrom, if_pos ⟨hlow, hhigh⟩, if_pos howed]
    rfl
  | @more p b ws c hlow hhigh howed _ ih =>
    rw [List.cons_append, decodeFrom, if_pos ⟨hlow, hhigh⟩, if_neg howed, ih, List.length_cons, Nat.add_assoc,
      Nat.add_comm 1]

theorem exists_completes_of_decodeFrom {p : Partial} {pos : ℕ} {bs : List UInt8} {cs : List Char}
    (h : decodeFrom pos (some p) bs = .ok cs) :
    ∃ ws c bs' cs', bs = ws ++ bs' ∧ Completes p ws c ∧ cs = c :: cs' ∧
      decodeFrom (pos + ws.length) none bs' = .ok cs' := by
  induction bs generalizing p pos with
  | nil => cases h
  | cons b bs ih =>
    rw [decodeFrom] at h
    split at h
    · next hb =>
      split at h
      · next howed =>
        cases hrest : decodeFrom (pos + 1) none bs with
        | error f => rw [hrest] at h; cases h
        | ok cs' =>
          rw [hrest] at h
          exact ⟨[b], _, bs, cs', rfl, .last hb.1 hb.2 howed, (Except.ok.inj h).symm, hrest⟩
      · next howed =>
        obtain ⟨ws, c, bs', cs', rfl, hc, hcs, hrest⟩ := ih h
        refine ⟨b :: ws, c, bs', cs', rfl, .more hb.1 hb.2 howed hc, hcs, ?_⟩
        rw [← hrest, List.length_cons, Nat.add_assoc, Nat.add_comm 1]
    · cases h

/-! ## The bytes of one character -/

theorem val_ofNat {n : ℕ} (h : n.isValidChar) : (Char.ofNat n).val.toNat = n := by
  rw [Char.ofNat, dif_pos h]
  rfl

theorem ofNat_eq {n : ℕ} {b : UInt8} (h : n = b.toNat) : UInt8.ofNat n = b := by rw [h, UInt8.ofNat_toNat]

theorem toNat_ofNat_of_lt {n : ℕ} (h : n < 256) : (UInt8.ofNat n).toNat = n := by
  rw [UInt8.toNat_ofNat', Nat.mod_eq_of_lt h]

/-- a first byte that starts a character of several says how many follow, and what the next one may be -/
theorem start?_cases {b : UInt8} {p : Partial} (h : start? b = some p) :
    0xC2 ≤ b.toNat ∧ b.toNat ≤ 0xDF ∧ p = ⟨b, 1, b.toNat % 0x20, 1, 0x80, 0xBF⟩ ∨
      0xE0 ≤ b.toNat ∧ b.toNat ≤ 0xEF ∧ p = ⟨b, 1, b.toNat % 0x10, 2, if b.toNat = 0xE0 then 0xA0 else 0x80,
        if b.toNat = 0xED then 0x9F else 0xBF⟩ ∨
      0xF0 ≤ b.toNat ∧ b.toNat ≤ 0xF4 ∧ p = ⟨b, 1, b.toNat % 0x08, 3, if b.toNat = 0xF0 then 0x90 else 0x80,
        if b.toNat = 0xF4 then 0x8F else 0xBF⟩ := by
  simp only [start?] at h
  split at h
  · next hb => exact .inl ⟨hb.1, hb.2, (Option.some.inj h).symm⟩
  · split at h
    · next hb => exact .inr (.inl ⟨hb.1, hb.2, (Option.some.inj h).symm⟩)
    · split at h
      · next hb => exact .inr (.inr ⟨hb.1, hb.2, (Option.some.inj h).symm⟩)
      · cases h

theorem Completes.of_last {p : Partial} {ws : List UInt8} {c : Char} (h : Completes p ws c) (howed : p.owed = 1) :
    ∃ b : UInt8, ws = [b] ∧ p.low ≤ b.toNat ∧ b.toNat ≤ p.high ∧ c = Char.ofNat (p.push b).value := by
  cases h with
  | last hlow hhigh _ => exact ⟨_, rfl, hlow, hhigh, rfl⟩
  | more _ _ hne _ => exact absurd howed hne

theorem Completes.of_more {p : Partial} {ws : List UInt8} {c : Char} (h : Completes p ws c) (howed : p.owed ≠ 1) :
    ∃ (b : UInt8) (ws' : List UInt8), ws = b :: ws' ∧ p.low ≤ b.toNat ∧ b.toNat ≤ p.high ∧
      Completes (p.push b) ws' c := by
  cases h with
  | last _ _ heq => exact absurd heq howed
  | more hlow hhigh _ h => exact ⟨_, _, rfl, hlow, hhigh, h⟩

theorem encodeChar_two {v : ℕ} (hlow : 0x80 ≤ v) (hhigh : v < 0x800) :
    String.utf8EncodeChar (Char.ofNat v) = [UInt8.ofNat (v / 64 % 32 + 192), UInt8.ofNat (v % 64 + 128)] := by
  have hval : (Char.ofNat v).val.toNat = v := val_ofNat (.inl (by omega))
  simp only [String.utf8EncodeChar, hval]
  rw [if_neg (by omega), if_pos (by omega)]

theorem encodeChar_three {v : ℕ} (hvalid : v.isValidChar) (hlow : 0x800 ≤ v) (hhigh : v < 0x10000) :
    String.utf8EncodeChar (Char.ofNat v) =
      [UInt8.ofNat (v / 4096 % 16 + 224), UInt8.ofNat (v / 64 % 64 + 128), UInt8.ofNat (v % 64 + 128)] := by
  simp only [String.utf8EncodeChar, val_ofNat hvalid]
  rw [if_neg (by omega), if_neg (by omega), if_pos (by omega)]

theorem encodeChar_four {v : ℕ} (hlow : 0x10000 ≤ v) (hhigh : v < 0x110000) :
    String.utf8EncodeChar (Char.ofNat v) =
      [UInt8.ofNat (v / 262144 % 8 + 240), UInt8.ofNat (v / 4096 % 64 + 128), UInt8.ofNat (v / 64 % 64 + 128),
        UInt8.ofNat (v % 64 + 128)] := by
  have hval : (Char.ofNat v).val.toNat = v := val_ofNat (.inr (by omega))
  simp only [String.utf8EncodeChar, hval]
  rw [if_neg (by omega), if_neg (by omega), if_neg (by omega)]

/-- the bytes that complete a character are those of the character -/
theorem encodeChar_of_completes {b : UInt8} {p : Partial} {ws : List UInt8} {c : Char} (hstart : start? b = some p)
    (h : Completes p ws c) : String.utf8EncodeChar c = b :: ws := by
  rcases start?_cases hstart with ⟨hl, hh, rfl⟩ | ⟨hl, hh, rfl⟩ | ⟨hl, hh, rfl⟩
  · obtain ⟨b₁, rfl, hl₁, hh₁, rfl⟩ := h.of_last rfl
    simp only [Partial.push] at *
    rw [encodeChar_two (by omega) (by omega), ofNat_eq (b := b) (by omega), ofNat_eq (b := b₁) (by omega)]
  · obtain ⟨b₁, ws, rfl, hl₁, hh₁, h⟩ := h.of_more (show 2 ≠ 1 by decide)
    obtain ⟨b₂, rfl, hl₂, hh₂, rfl⟩ := h.of_last rfl
    simp only [Partial.push] at *
    have hlow : 0x80 ≤ b₁.toNat ∧ (b.toNat = 0xE0 → 0xA0 ≤ b₁.toNat) := by split at hl₁ <;> omega
    have hhigh : b₁.toNat ≤ 0xBF ∧ (b.toNat = 0xED → b₁.toNat ≤ 0x9F) := by split at hh₁ <;> omega
    clear hl₁ hh₁
    have hvalid : ((b.toNat % 16 * 64 + b₁.toNat % 64) * 64 + b₂.toNat % 64).isValidChar := by
      unfold Nat.isValidChar
      omega
    rw [encodeChar_three hvalid (by omega) (by omega), ofNat_eq (b := b) (by omega), ofNat_eq (b := b₁) (by omega),
      ofNat_eq (b := b₂) (by omega)]
  · obtain ⟨b₁, ws, rfl, hl₁, hh₁, h⟩ := h.of_more (show 3 ≠ 1 by decide)
    obtain ⟨b₂, ws, rfl, hl₂, hh₂, h⟩ := h.of_more (show 2 ≠ 1 by decide)
    obtain ⟨b₃, rfl, hl₃, hh₃, rfl⟩ := h.of_last rfl
    simp only [Partial.push] at *
    have hlow : 0x80 ≤ b₁.toNat ∧ (b.toNat = 0xF0 → 0x90 ≤ b₁.toNat) := by split at hl₁ <;> omega
    have hhigh : b₁.toNat ≤ 0xBF ∧ (b.toNat = 0xF4 → b₁.toNat ≤ 0x8F) := by split at hh₁ <;> omega
    clear hl₁ hh₁
    rw [encodeChar_four (by omega) (by omega), ofNat_eq (b := b) (by omega), ofNat_eq (b := b₁) (by omega),
      ofNat_eq (b := b₂) (by omega), ofNat_eq (b := b₃) (by omega)]

theorem start?_two {b : UInt8} (hlow : 0xC2 ≤ b.toNat) (hhigh : b.toNat ≤ 0xDF) :
    start? b = some ⟨b, 1, b.toNat % 0x20, 1, 0x80, 0xBF⟩ := by
  simp only [start?]
  rw [if_pos ⟨hlow, hhigh⟩]

theorem start?_three {b : UInt8} (hlow : 0xE0 ≤ b.toNat) (hhigh : b.toNat ≤ 0xEF) :
    start? b = some ⟨b, 1, b.toNat % 0x10, 2, if b.toNat = 0xE0 then 0xA0 else 0x80,
      if b.toNat = 0xED then 0x9F else 0xBF⟩ := by
  simp only [start?]
  rw [if_neg (by omega), if_pos ⟨hlow, hhigh⟩]

theorem start?_four {b : UInt8} (hlow : 0xF0 ≤ b.toNat) (hhigh : b.toNat ≤ 0xF4) :
    start? b = some ⟨b, 1, b.toNat % 0x08, 3, if b.toNat = 0xF0 then 0x90 else 0x80,
      if b.toNat = 0xF4 then 0x8F else 0xBF⟩ := by
  simp only [start?]
  rw [if_neg (by omega), if_neg (by omega), if_pos ⟨hlow, hhigh⟩]

theorem Completes.last_of_value {p : Partial} {b : UInt8} {c : Char} (hlow : p.low ≤ b.toNat) (hhigh : b.toNat ≤ p.high)
    (howed : p.owed = 1) (hvalue : (p.push b).value = c.toNat) : Completes p [b] c := by
  rw [← Char.ofNat_toNat c, ← hvalue]
  exact .last hlow hhigh howed

/-- a character is written in one byte, or in a first one and those that complete it -/
theorem exists_completes (c : Char) :
    (∃ b : UInt8, b.toNat < 0x80 ∧ c = Char.ofNat b.toNat ∧ String.utf8EncodeChar c = [b]) ∨
      ∃ b ws p, ¬ b.toNat < 0x80 ∧ start? b = some p ∧ Completes p ws c ∧ String.utf8EncodeChar c = b :: ws := by
  have hvalid : c.toNat.isValidChar := c.valid
  have hchar : c = Char.ofNat c.toNat := (Char.ofNat_toNat c).symm
  by_cases h₁ : c.toNat < 0x80
  · have hb := toNat_ofNat_of_lt (n := c.toNat) (by omega)
    refine .inl ⟨UInt8.ofNat c.toNat, by omega, by rw [hb, ← hchar], ?_⟩
    exact if_pos (by change c.toNat ≤ 127; omega)
  have hb₀ := toNat_ofNat_of_lt (n := c.toNat % 64 + 128) (by omega)
  have hb₁ := toNat_ofNat_of_lt (n := c.toNat / 64 % 64 + 128) (by omega)
  have hb₂ := toNat_ofNat_of_lt (n := c.toNat / 4096 % 64 + 128) (by omega)
  by_cases h₂ : c.toNat < 0x800
  · have hb := toNat_ofNat_of_lt (n := c.toNat / 64 % 32 + 192) (by omega)
    have hbytes := encodeChar_two (by omega) h₂
    rw [← hchar] at hbytes
    refine .inr ⟨_, _, _, by omega, start?_two (by omega) (by omega), .last_of_value ?_ ?_ rfl ?_, hbytes⟩
    all_goals
      simp only [Partial.push]
      omega
  unfold Nat.isValidChar at hvalid
  by_cases h₃ : c.toNat < 0x10000
  · have hb := toNat_ofNat_of_lt (n := c.toNat / 4096 % 16 + 224) (by omega)
    have hbytes := encodeChar_three hvalid (by omega) h₃
    rw [← hchar] at hbytes
    refine .inr ⟨_, _, _, by omega, start?_three (by omega) (by omega), .more ?_ ?_ (show 2 ≠ 1 by decide)
      (.last_of_value ?_ ?_ rfl ?_), hbytes⟩
    · simp only
      split <;> omega
    · simp only
      split <;> omega
    all_goals
      simp only [Partial.push]
      omega
  · have hb := toNat_ofNat_of_lt (n := c.toNat / 262144 % 8 + 240) (by omega)
    have hbytes := encodeChar_four (by omega) (by omega : c.toNat < 0x110000)
    rw [← hchar] at hbytes
    refine .inr ⟨_, _, _, by omega, start?_four (by omega) (by omega), .more ?_ ?_ (show 3 ≠ 1 by decide)
      (.more ?_ ?_ (show 2 ≠ 1 by decide) (.last_of_value ?_ ?_ rfl ?_)), hbytes⟩
    · simp only
      split <;> omega
    · simp only
      split <;> omega
    all_goals
      simp only [Partial.push]
      omega

theorem encodeChar_ascii {b : UInt8} (h : b.toNat < 0x80) : String.utf8EncodeChar (Char.ofNat b.toNat) = [b] := by
  have hval := val_ofNat (n := b.toNat) (.inl (by omega))
  simp only [String.utf8EncodeChar, hval]
  rw [if_pos (by omega)]
  simp

/-! ## The bytes of a text -/

theorem decodeFrom_encode (cs : List Char) (pos : ℕ) : decodeFrom pos none (encode cs) = .ok cs := by
  induction cs generalizing pos with
  | nil => rfl
  | cons c cs ih =>
    rw [encode, List.flatMap_cons]
    rcases exists_completes c with ⟨b, hb, hc, hbytes⟩ | ⟨b, ws, p, hb, hstart, hc, hbytes⟩
    · rw [hbytes, List.singleton_append, decodeFrom, if_pos hb, ← hc]
      change _ <$> decodeFrom (pos + 1) none (encode cs) = _
      rw [ih]
      rfl
    · rw [hbytes, List.cons_append, decodeFrom, if_neg hb, hstart]
      change decodeFrom (pos + 1) (some p) (ws ++ encode cs) = _
      rw [decodeFrom_completes hc, ih]
      rfl

theorem eq_encode_of_decodeFrom {pos : ℕ} {bs : List UInt8} {cs : List Char} (h : decodeFrom pos none bs = .ok cs) :
    bs = encode cs := by
  induction hn : bs.length using Nat.strong_induction_on generalizing bs cs pos with
  | _ n ih =>
    cases bs with
    | nil => cases h; rfl
    | cons b bs =>
      rw [decodeFrom] at h
      split at h
      · next hb =>
        cases hrest : decodeFrom (pos + 1) none bs with
        | error f => rw [hrest] at h; cases h
        | ok cs' =>
          rw [hrest] at h
          obtain rfl : _ :: cs' = cs := Except.ok.inj h
          rw [encode, List.flatMap_cons, encodeChar_ascii hb, List.singleton_append]
          exact congrArg (b :: ·) (ih bs.length (by rw [← hn]; simp) hrest rfl)
      · split at h
        · next p hstart =>
          obtain ⟨ws, c, bs', cs', rfl, hc, rfl, hrest⟩ := exists_completes_of_decodeFrom h
          rw [encode, List.flatMap_cons, encodeChar_of_completes hstart hc, List.cons_append]
          exact congrArg (b :: ws ++ ·) (ih bs'.length (by rw [← hn]; simp) hrest rfl)
        · cases h

/-- **Reading undoes writing.** Bytes read as a text if and only if they are the bytes of that text. -/
theorem decode_eq_ok_iff {bytes : List UInt8} {cs : List Char} : decode bytes = .ok cs ↔ bytes = encode cs :=
  ⟨eq_encode_of_decodeFrom, fun h => h ▸ decodeFrom_encode cs 0⟩

end LetFront.Text.Utf8
