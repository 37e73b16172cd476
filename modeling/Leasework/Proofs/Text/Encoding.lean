import Leasework.Text.Utf8
import Mathlib.Data.List.Basic

/-!
# `Leasework.Proofs.Text.Encoding`: the bytes of a character

`Encoded` says which bytes a character has, by the bits that each byte holds. It leaves out what
shorter characters can say, the halves of pairs and what is beyond the last character. These are the
bytes that the library encodes a character by (`encoded`), and there are no others (`Encoded.eq`).

`Begun` says what the decoder remembers of the bytes that a character begins with. The next byte
goes on with some character if it falls in the range that is remembered (`Begun.begins`), and all
bytes that begin a character and are none are remembered (`Begins.exists_begun`). So the table of
first bytes is exact: a byte is stray only if no character begins with it (`lead_of_not_begins`).
-/

set_option autoImplicit false

namespace Leasework.Text

variable {piece bytes : List UInt8} {p : Partial} {c : Char}

/-! ### The bytes of a character -/

/-- A byte that goes on with a character, by its six bits. -/
def tailByte (x : Nat) : UInt8 := UInt8.ofNat (0x80 + x)

/-- A character and its bytes, by the bits that each byte holds. -/
inductive Encoded : Char → List UInt8 → Prop where
  /-- One byte. -/
  | one {a : Nat} (ha : a < 0x80) : Encoded (Char.ofNat a) [UInt8.ofNat a]
  /-- Two bytes. -/
  | two {a b : Nat} (ha : a < 0x20) (hb : b < 0x40) (least : 2 ≤ a) :
      Encoded (Char.ofNat (a * 64 + b)) [UInt8.ofNat (0xC0 + a), tailByte b]
  /-- Three bytes, which leave out what two can say and the halves of pairs. -/
  | three {a b c : Nat} (ha : a < 0x10) (hb : b < 0x40) (hc : c < 0x40)
      (least : a = 0 → 0x20 ≤ b) (single : a = 0xD → b < 0x20) :
      Encoded (Char.ofNat ((a * 64 + b) * 64 + c))
        [UInt8.ofNat (0xE0 + a), tailByte b, tailByte c]
  /-- Four bytes, which leave out what three can say and what is no character. -/
  | four {a b c d : Nat} (ha : a < 5) (hb : b < 0x40) (hc : c < 0x40) (hd : d < 0x40)
      (least : a = 0 → 0x10 ≤ b) (most : a = 4 → b < 0x10) :
      Encoded (Char.ofNat (((a * 64 + b) * 64 + c) * 64 + d))
        [UInt8.ofNat (0xF0 + a), tailByte b, tailByte c, tailByte d]

/-- A number that is a character is the number of this character. -/
theorem toNat_val_ofNat {n : Nat} (h : n.isValidChar) : (Char.ofNat n).val.toNat = n := by
  rw [Char.ofNat, dif_pos h]
  rfl

/-- The bits stand for the bytes that the character has. -/
theorem Encoded.eq {c : Char} {bytes : List UInt8} (h : Encoded c bytes) :
    String.utf8EncodeChar c = bytes := by
  unfold String.utf8EncodeChar
  cases h with
  | @one a ha =>
    have short : a ≤ 0x7f := by omega
    simp [toNat_val_ofNat (.inl (by omega : a < 0xD800)), short]
  | @two a b ha hb least =>
    have value := toNat_val_ofNat (n := a * 64 + b) (.inl (by omega))
    have first : (a * 64 + b) / 64 % 32 + 192 = 0xC0 + a := by omega
    have second : (a * 64 + b) % 64 + 128 = 0x80 + b := by omega
    rw [value, if_neg (by omega), if_pos (by omega), first, second]
    rfl
  | @three a b c ha hb hc least single =>
    have value := toNat_val_ofNat (n := (a * 64 + b) * 64 + c) (by unfold Nat.isValidChar; omega)
    have first : ((a * 64 + b) * 64 + c) / 4096 % 16 + 224 = 0xE0 + a := by omega
    have second : ((a * 64 + b) * 64 + c) / 64 % 64 + 128 = 0x80 + b := by omega
    have third : ((a * 64 + b) * 64 + c) % 64 + 128 = 0x80 + c := by omega
    rw [value, if_neg (by omega), if_neg (by omega), if_pos (by omega), first, second, third]
    rfl
  | @four a b c d ha hb hc hd least most =>
    have value := toNat_val_ofNat (n := ((a * 64 + b) * 64 + c) * 64 + d)
      (by unfold Nat.isValidChar; omega)
    have first : (((a * 64 + b) * 64 + c) * 64 + d) / 262144 % 8 + 240 = 0xF0 + a := by omega
    have second : (((a * 64 + b) * 64 + c) * 64 + d) / 4096 % 64 + 128 = 0x80 + b := by omega
    have third : (((a * 64 + b) * 64 + c) * 64 + d) / 64 % 64 + 128 = 0x80 + c := by omega
    have fourth : (((a * 64 + b) * 64 + c) * 64 + d) % 64 + 128 = 0x80 + d := by omega
    rw [value, if_neg (by omega), if_neg (by omega), if_neg (by omega), first, second, third,
      fourth]
    rfl

/-- Every character is encoded by bits. -/
theorem exists_encoded (c : Char) : ∃ bytes, Encoded c bytes := by
  have number : Char.ofNat c.toNat = c := Char.ofNat_toNat c
  have valid : c.toNat.isValidChar := c.valid
  unfold Nat.isValidChar at valid
  generalize c.toNat = n at number valid
  subst number
  -- The bits are the digits of the number to the base of 64.
  by_cases one : n < 0x80
  · exact ⟨_, .one one⟩
  by_cases two : n < 0x800
  · have bits : n = n / 64 * 64 + n % 64 := by omega
    rw [bits]
    exact ⟨_, .two (by omega) (by omega) (by omega)⟩
  by_cases three : n < 0x10000
  · have bits : n = (n / 4096 * 64 + n / 64 % 64) * 64 + n % 64 := by omega
    rw [bits]
    exact ⟨_, .three (by omega) (by omega) (by omega) (by omega) (by omega)⟩
  · have bits : n = ((n / 262144 * 64 + n / 4096 % 64) * 64 + n / 64 % 64) * 64 + n % 64 := by
      omega
    rw [bits]
    exact ⟨_, .four (by omega) (by omega) (by omega) (by omega) (by omega) (by omega)⟩

/-- The bytes of a character are encoded by bits. -/
theorem encoded (c : Char) : Encoded c (String.utf8EncodeChar c) := by
  obtain ⟨bytes, h⟩ := exists_encoded c
  exact h.eq ▸ h

/-! ### First bytes and other bytes -/

/-- A byte below 0x80 is a character. -/
theorem lead_one {a : Nat} (ha : a < 0x80) : lead (UInt8.ofNat a) = .whole (Char.ofNat a) := by
  have value : (UInt8.ofNat a).toNat = a := by simp; omega
  simp [lead, value, ha]

/-- The first one of two bytes. -/
theorem lead_two : ∀ {a : Nat}, a < 0x20 → 2 ≤ a →
    lead (UInt8.ofNat (0xC0 + a)) = .begins ⟨1, 0x80, 0xBF, a⟩ := by
  decide

/-- The first one of three bytes. -/
theorem lead_three : ∀ {a : Nat}, a < 0x10 → lead (UInt8.ofNat (0xE0 + a))
    = .begins ⟨2, if a = 0 then 0xA0 else 0x80, if a = 0xD then 0x9F else 0xBF, a⟩ := by
  decide

/-- The first one of four bytes. -/
theorem lead_four : ∀ {a : Nat}, a < 5 → lead (UInt8.ofNat (0xF0 + a))
    = .begins ⟨3, if a = 0 then 0x90 else 0x80, if a = 4 then 0x8F else 0xBF, a⟩ := by
  decide

/-- The value of a byte that goes on with a character. -/
theorem toNat_tailByte {x : Nat} (hx : x < 0x40) : (tailByte x).toNat = 0x80 + x := by
  simp [tailByte]
  omega

/-- Every byte in that range goes on with a character. -/
theorem exists_tailByte {b : UInt8} (low : 0x80 ≤ b) (high : b ≤ 0xBF) :
    ∃ x, x < 0x40 ∧ b = tailByte x := by
  rw [UInt8.le_iff_toNat_le] at low high
  have low' : 0x80 ≤ b.toNat := low
  have high' : b.toNat ≤ 0xBF := high
  refine ⟨b.toNat - 0x80, by omega, ?_⟩
  rw [tailByte, Nat.add_sub_cancel' low', UInt8.ofNat_toNat]

/-- A byte that no character begins with. -/
theorem lead_stray {b : UInt8} (h : (0x80 ≤ b.toNat ∧ b.toNat < 0xC2) ∨ 0xF5 ≤ b.toNat) :
    lead b = .stray := by
  simp only [lead]
  repeat rw [if_neg (by omega)]

/-- Bytes compare like their values. -/
theorem within_iff {low high : UInt8} {x : Nat} (hx : x < 0x40) :
    (low ≤ tailByte x ∧ tailByte x ≤ high) ↔ low.toNat ≤ 0x80 + x ∧ 0x80 + x ≤ high.toNat := by
  rw [UInt8.le_iff_toNat_le, UInt8.le_iff_toNat_le, toNat_tailByte hx]

/-- Any byte goes on with a character, unless it is the second one. -/
theorem within_rest {x : Nat} (hx : x < 0x40) : (0x80 : UInt8) ≤ tailByte x ∧ tailByte x ≤ 0xBF :=
  (within_iff hx).mpr (by simp; omega)

/-- The second one of three bytes, by the bits of the first one. -/
theorem within_three_iff {a b : Nat} (hb : b < 0x40) :
    ((if a = 0 then 0xA0 else 0x80) ≤ tailByte b ∧ tailByte b ≤ if a = 0xD then 0x9F else 0xBF)
      ↔ (a = 0 → 0x20 ≤ b) ∧ (a = 0xD → b < 0x20) := by
  rw [within_iff hb]
  split <;> split <;> simp <;> omega

/-- The second one of four bytes, by the bits of the first one. -/
theorem within_four_iff {a b : Nat} (hb : b < 0x40) :
    ((if a = 0 then 0x90 else 0x80) ≤ tailByte b ∧ tailByte b ≤ if a = 4 then 0x8F else 0xBF)
      ↔ (a = 0 → 0x10 ≤ b) ∧ (a = 4 → b < 0x10) := by
  rw [within_iff hb]
  split <;> split <;> simp <;> omega

/-! ### Characters that are being read -/

/-- The bytes that a character begins with, and what is remembered of them. -/
inductive Begun : List UInt8 → Partial → Prop where
  /-- The first one of two bytes. -/
  | two {a : Nat} (ha : a < 0x20) (least : 2 ≤ a) :
      Begun [UInt8.ofNat (0xC0 + a)] ⟨1, 0x80, 0xBF, a⟩
  /-- The first one of three bytes. -/
  | three {a : Nat} (ha : a < 0x10) :
      Begun [UInt8.ofNat (0xE0 + a)]
        ⟨2, if a = 0 then 0xA0 else 0x80, if a = 0xD then 0x9F else 0xBF, a⟩
  /-- The first one of four bytes. -/
  | four {a : Nat} (ha : a < 5) :
      Begun [UInt8.ofNat (0xF0 + a)]
        ⟨3, if a = 0 then 0x90 else 0x80, if a = 4 then 0x8F else 0xBF, a⟩
  /-- One more byte, which is not the last one. -/
  | next {piece : List UInt8} {p : Partial} {x : Nat} (begun : Begun piece p) (hx : x < 0x40)
      (within : p.low ≤ tailByte x ∧ tailByte x ≤ p.high) (owed : 1 < p.owed) :
      Begun (piece ++ [tailByte x]) ⟨p.owed - 1, 0x80, 0xBF, p.bits * 64 + x⟩

/-- The next byte is one that goes on with a character. -/
theorem Begun.range (begun : Begun piece p) : 0x80 ≤ p.low ∧ p.high ≤ 0xBF ∧ 1 ≤ p.owed := by
  cases begun with
  | two ha least => refine ⟨?_, ?_, ?_⟩ <;> dsimp only <;> decide
  | three ha => refine ⟨?_, ?_, ?_⟩ <;> dsimp only <;> (try split) <;> decide
  | four ha => refine ⟨?_, ?_, ?_⟩ <;> dsimp only <;> (try split) <;> decide
  | next begun hx within owed =>
    dsimp only
    exact ⟨by decide, by decide, by omega⟩

/-- Whatever bytes in order come next, they make a character. -/
theorem Begun.encoded (begun : Begun piece p) (xs : List Nat) (length : xs.length = p.owed)
    (bits : ∀ x ∈ xs, x < 0x40)
    (within : ∀ x ∈ xs.head?, p.low ≤ tailByte x ∧ tailByte x ≤ p.high) :
    Encoded (Char.ofNat (xs.foldl (fun value x => value * 64 + x) p.bits))
      (piece ++ xs.map tailByte) := by
  induction begun generalizing xs with
  | two ha least =>
    match xs, length with
    | [x], _ => exact .two ha (bits x (by simp)) least
  | three ha =>
    match xs, length with
    | [x, y], _ =>
      have hx := bits x (by simp)
      obtain ⟨least, single⟩ := (within_three_iff hx).mp (within x rfl)
      exact .three ha hx (bits y (by simp)) least single
  | four ha =>
    match xs, length with
    | [x, y, z], _ =>
      have hx := bits x (by simp)
      obtain ⟨least, most⟩ := (within_four_iff hx).mp (within x rfl)
      exact .four ha hx (bits y (by simp)) (bits z (by simp)) least most
  | @next piece p x begun hx within' owed ih =>
    have := ih (x :: xs) (by simp at length ⊢; omega) (List.forall_mem_cons.mpr ⟨hx, bits⟩)
      (by rintro _ ⟨⟩; exact within')
    simpa using this

/-- The bytes of a character are one byte, or bytes it begins with and a last one. -/
theorem Encoded.last (h : Encoded c bytes) :
    (∃ a, a < 0x80 ∧ c = Char.ofNat a ∧ bytes = [UInt8.ofNat a]) ∨
      ∃ piece p x, Begun piece p ∧ x < 0x40 ∧ (p.low ≤ tailByte x ∧ tailByte x ≤ p.high) ∧
        p.owed = 1 ∧ c = Char.ofNat (p.bits * 64 + x) ∧ bytes = piece ++ [tailByte x] := by
  cases h with
  | @one a ha => exact .inl ⟨a, ha, rfl, rfl⟩
  | @two a b ha hb least =>
    exact .inr ⟨_, _, b, .two ha least, hb, within_rest hb, rfl, rfl, rfl⟩
  | @three a b c ha hb hc least single =>
    have second := (within_three_iff hb).mpr ⟨least, single⟩
    exact .inr ⟨_, _, c, .next (.three ha) hb second (by simp), hc, within_rest hc, rfl, rfl, rfl⟩
  | @four a b c d ha hb hc hd least most =>
    have second := (within_four_iff hb).mpr ⟨least, most⟩
    exact .inr ⟨_, _, d, .next (.next (.four ha) hb second (by simp)) hc (within_rest hc)
      (by simp), hd, within_rest hd, rfl, rfl, rfl⟩

/-! ### Bytes that begin a character -/

/-- The bytes begin a character. -/
def Begins (piece : List UInt8) : Prop := ∃ c, piece <+: String.utf8EncodeChar c

/-- Each byte in the range that is remembered goes on with a character. -/
theorem Begun.begins (begun : Begun piece p) {b : UInt8} (within : p.low ≤ b ∧ b ≤ p.high) :
    Begins (piece ++ [b]) := by
  obtain ⟨low, high, owed⟩ := begun.range
  obtain ⟨x, hx, rfl⟩ :=
    exists_tailByte (UInt8.le_trans low within.1) (UInt8.le_trans within.2 high)
  -- Zeros make up for the bytes that are owed after it.
  have zeros : ∀ y ∈ List.replicate (p.owed - 1) 0, y < 0x40 := by
    intro y h
    rw [List.eq_of_mem_replicate h]
    decide
  have whole := begun.encoded (x :: List.replicate (p.owed - 1) 0) (by simp; omega)
    (List.forall_mem_cons.mpr ⟨hx, zeros⟩) (by rintro _ ⟨⟩; exact within)
  have start := List.prefix_append (piece ++ [tailByte x])
    ((List.replicate (p.owed - 1) 0).map tailByte)
  rw [← List.append_cons, ← List.map_cons, ← whole.eq] at start
  exact ⟨_, start⟩

/-- All that begins a single byte is this byte. -/
theorem eq_of_isPrefix_singleton {b : UInt8} (start : piece <+: [b]) (nonempty : piece ≠ []) :
    piece = [b] := by
  obtain ⟨rfl⟩ | ⟨_, rfl, h⟩ := List.prefix_cons_iff.mp start
  · exact absurd rfl nonempty
  · rw [List.prefix_nil.mp h]

/-- Less of the bytes that a character begins with are bytes it begins with. -/
theorem Begun.of_isPrefix (begun : Begun bytes p) (start : piece <+: bytes)
    (nonempty : piece ≠ []) : ∃ p', Begun piece p' := by
  induction begun with
  | two ha least =>
    rw [eq_of_isPrefix_singleton start nonempty]
    exact ⟨_, .two ha least⟩
  | three ha =>
    rw [eq_of_isPrefix_singleton start nonempty]
    exact ⟨_, .three ha⟩
  | four ha =>
    rw [eq_of_isPrefix_singleton start nonempty]
    exact ⟨_, .four ha⟩
  | next begun hx within owed ih =>
    obtain rfl | start := List.prefix_concat_iff.mp start
    · exact ⟨_, begun.next hx within owed⟩
    · exact ih start

/-- Bytes that begin a character and are none are remembered. -/
theorem Begins.exists_begun (begins : Begins piece) (nonempty : piece ≠ [])
    (unfinished : ∀ c, piece ≠ String.utf8EncodeChar c) : ∃ p, Begun piece p := by
  obtain ⟨c, start⟩ := begins
  obtain ⟨a, ha, rfl, one⟩ | ⟨piece', p, x, begun, -, -, -, -, more⟩ := (encoded c).last
  · rw [one] at start
    exact absurd ((eq_of_isPrefix_singleton start nonempty).trans one.symm) (unfinished _)
  · rw [more] at start
    obtain whole | start := List.prefix_concat_iff.mp start
    · exact absurd (whole.trans more.symm) (unfinished c)
    · exact begun.of_isPrefix start nonempty

/-- A byte that no character begins with is a stray one. -/
theorem lead_of_not_begins {b : UInt8} (h : ¬ Begins [b]) : lead b = .stray := by
  have other {c : Char} {n : Nat} {rest : List UInt8}
      (encodes : Encoded c (UInt8.ofNat n :: rest)) : b.toNat ≠ n := by
    rintro rfl
    rw [UInt8.ofNat_toNat] at encodes
    exact h ⟨c, encodes.eq ▸ List.prefix_append [b] rest⟩
  by_cases range : (0x80 ≤ b.toNat ∧ b.toNat < 0xC2) ∨ 0xF5 ≤ b.toNat
  · exact lead_stray range
  · -- Each of the other bytes begins a character.
    exfalso
    by_cases one : b.toNat < 0x80
    · exact other (.one one) rfl
    by_cases two : b.toNat < 0xE0
    · have := other (.two (a := b.toNat - 0xC0) (b := 0) (by omega) (by omega) (by omega))
      omega
    by_cases three : b.toNat < 0xF0
    · have := other (.three (a := b.toNat - 0xE0) (b := if b.toNat = 0xE0 then 0x20 else 0)
        (c := 0) (by omega) (by split <;> omega) (by omega) (by split <;> omega)
        (by split <;> omega))
      omega
    · have := other (.four (a := b.toNat - 0xF0) (b := if b.toNat = 0xF0 then 0x10 else 0)
        (c := 0) (d := 0) (by omega) (by split <;> omega) (by omega) (by omega)
        (by split <;> omega) (by split <;> omega))
      omega

end Leasework.Text
