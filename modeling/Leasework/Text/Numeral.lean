/-!
# `Leasework.Text.Numeral`: unsigned decimal numbers of a fixed size

A number is an optional plus sign and one or more ASCII digits. Reading goes from
left to right and stops at the first thing wrong: a character that is no digit, or
a digit that takes the value past the limit.
-/

set_option autoImplicit false

namespace Leasework.Text

/-- Why a text is no number of the wanted size. -/
inductive NumeralFault where
  /-- There is no character at all. -/
  | empty
  /-- A character is no digit, or there is only a sign. -/
  | invalidDigit
  /-- The value does not fit. -/
  | tooLarge
deriving DecidableEq, Repr

/-- The wording of a numeral fault. -/
def NumeralFault.message : NumeralFault → String
  | .empty => "cannot parse integer from empty string"
  | .invalidDigit => "invalid digit found in string"
  | .tooLarge => "number too large to fit in target type"

/-- The value of an ASCII digit. -/
def digit? (c : Char) : Option Nat :=
  if '0' ≤ c ∧ c ≤ '9' then some (c.toNat - '0'.toNat) else none

/-- Reads digits onto a value that has to stay below `limit`. -/
def digitsBelow (limit : Nat) : Nat → List Char → Except NumeralFault Nat
  | value, [] => .ok value
  | value, c :: rest =>
    match digit? c with
    | none => .error .invalidDigit
    | some d =>
      if value * 10 + d < limit then digitsBelow limit (value * 10 + d) rest
      else .error .tooLarge

/-- Reads an unsigned number below `limit`. -/
def numeralBelow (limit : Nat) (s : String) : Except NumeralFault Nat :=
  match s.toList with
  | [] => .error .empty
  | ['+'] => .error .invalidDigit
  | '+' :: digits => digitsBelow limit 0 digits
  | digits => digitsBelow limit 0 digits

/-- Reads a 64-bit number. -/
def word64 (s : String) : Except NumeralFault UInt64 :=
  (numeralBelow 18446744073709551616 s).map UInt64.ofNat

/-- Reads a 16-bit number. -/
def word16 (s : String) : Except NumeralFault UInt16 :=
  (numeralBelow 65536 s).map UInt16.ofNat

/-- Reads a whole number that fits 64 bits with its sign. -/
def int64? (s : String) : Option Int :=
  match s.toList with
  | ['-'] => none
  | '-' :: digits =>
    match digitsBelow 9223372036854775809 0 digits with
    | .ok n => some (-(n : Int))
    | .error _ => none
  | _ =>
    match numeralBelow 9223372036854775808 s with
    | .ok n => some n
    | .error _ => none

end Leasework.Text
