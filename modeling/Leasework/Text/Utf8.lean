/-!
# `Leasework.Text.Utf8`: texts from bytes

A decoder that takes one byte at a time. It remembers the tail bytes a character
still owes and the range its next byte has to fall in, so it knows at the first
wrong byte that the text is malformed.

`decode?` refuses a malformed text. `decodeLossy` puts one replacement character
where a piece is malformed: a piece is the longest run of bytes that begins some
character, or a single byte that begins none.
-/

set_option autoImplicit false

namespace Leasework.Text

/-- A character whose first bytes have been read. -/
structure Partial where
  /-- How many more bytes it takes. -/
  owed : Nat
  /-- The least value of the next byte. -/
  low : UInt8
  /-- The greatest value of the next byte. -/
  high : UInt8
  /-- The bits read so far. -/
  bits : Nat
deriving DecidableEq, Repr

/-- What a byte means between two characters. -/
inductive Lead where
  /-- The byte is a character of its own. -/
  | whole (c : Char)
  /-- The byte begins a longer character. -/
  | begins (p : Partial)
  /-- No character begins with the byte. -/
  | stray
deriving DecidableEq, Repr

/-- Reads a byte that stands between two characters. -/
def lead (b : UInt8) : Lead :=
  let n := b.toNat
  if n < 0x80 then .whole (Char.ofNat n)
  else if 0xC2 ≤ n ∧ n ≤ 0xDF then .begins ⟨1, 0x80, 0xBF, n - 0xC0⟩
  else if n = 0xE0 then .begins ⟨2, 0xA0, 0xBF, 0⟩
  else if n = 0xED then .begins ⟨2, 0x80, 0x9F, 0xD⟩
  else if 0xE1 ≤ n ∧ n ≤ 0xEF then .begins ⟨2, 0x80, 0xBF, n - 0xE0⟩
  else if n = 0xF0 then .begins ⟨3, 0x90, 0xBF, 0⟩
  else if n = 0xF4 then .begins ⟨3, 0x80, 0x8F, 4⟩
  else if 0xF1 ≤ n ∧ n ≤ 0xF3 then .begins ⟨3, 0x80, 0xBF, n - 0xF0⟩
  else .stray

/-- A decoder in the middle of a text. -/
structure Decoder where
  /-- The characters read, the last one first. -/
  done : List Char
  /-- The character that is being read, if any. -/
  pending : Option Partial
  /-- Whether a malformed piece has been met. -/
  malformed : Bool
deriving Repr

namespace Decoder

/-- A decoder before the first byte. -/
def start : Decoder := ⟨[], none, false⟩

/-- Puts the replacement character for a malformed piece. -/
def replace (d : Decoder) : Decoder := ⟨'\uFFFD' :: d.done, none, true⟩

/-- Reads a byte between two characters. -/
def first (d : Decoder) (b : UInt8) : Decoder :=
  match lead b with
  | .whole c => { d with done := c :: d.done, pending := none }
  | .begins p => { d with pending := some p }
  | .stray => d.replace

/-- Reads a byte. One that cannot go on with the pending character ends it as a
malformed piece and is then read afresh. -/
def push (d : Decoder) (b : UInt8) : Decoder :=
  match d.pending with
  | none => d.first b
  | some p =>
    if p.low ≤ b ∧ b ≤ p.high then
      let bits := p.bits * 64 + (b.toNat - 0x80)
      if p.owed ≤ 1 then { d with done := Char.ofNat bits :: d.done, pending := none }
      else { d with pending := some ⟨p.owed - 1, 0x80, 0xBF, bits⟩ }
    else d.replace.first b

/-- Ends the text: a character that still owes bytes is a malformed piece. -/
def finish (d : Decoder) : Decoder :=
  match d.pending with
  | none => d
  | some _ => d.replace

end Decoder

/-- Runs the decoder over a whole text. -/
def decoded (bytes : List UInt8) : Decoder := (bytes.foldl Decoder.push Decoder.start).finish

/-- The text with one replacement character for every malformed piece. -/
def decodeLossy (bytes : List UInt8) : String := String.ofList (decoded bytes).done.reverse

/-- The text, when no piece of it is malformed. -/
def decode? (bytes : List UInt8) : Option String :=
  let d := decoded bytes
  if d.malformed then none else some (String.ofList d.done.reverse)

/-- The bytes of a text. -/
def encode (s : String) : List UInt8 := s.toUTF8.toList

end Leasework.Text
