import Leasework.Document
import Leasework.Toml.Lexeme

/-!
# `Leasework.Toml.Scalar`: numbers, dates and times of TOML

A value that begins with a sign or a digit is a date or a time if it begins like
one, a floating-point number if a fraction or an exponent follows, and a whole
number otherwise. Whole numbers have to fit 64 bits with a sign; a floating-point
number may not round to infinity.
-/

set_option autoImplicit false

namespace Leasework.Toml

/-- Reads exactly `n` decimal digits. -/
def digits? (n : Nat) (cs : List Char) : Option (Nat × List Char) :=
  let run := cs.take n
  if run.length = n && run.all Char.isDigit then
    some (run.foldl (fun value c => value * 10 + (c.toNat - '0'.toNat)) 0, cs.drop n)
  else none

/-- Reads exactly `n` digits whose value lies in a range. -/
def digitsIn? (n low high : Nat) (cs : List Char) : Option (Nat × List Char) :=
  match digits? n cs with
  | some (value, rest) => if low ≤ value && value ≤ high then some (value, rest) else none
  | none => none

/-- Reads one given character. -/
def char? (c : Char) : List Char → Option (List Char)
  | d :: rest => if d = c then some rest else none
  | [] => none

/-- The days of a month. -/
def daysIn (year month : Nat) : Nat :=
  if month = 2 then
    if year % 4 = 0 && (year % 100 ≠ 0 || year % 400 = 0) then 29 else 28
  else if month = 4 || month = 6 || month = 9 || month = 11 then 30
  else 31

/-- What is left after a date. -/
def date? (cs : List Char) : Option (List Char) := do
  let (year, rest) ← digits? 4 cs
  let rest ← char? '-' rest
  let (month, rest) ← digitsIn? 2 1 12 rest
  let rest ← char? '-' rest
  let (_, rest) ← digitsIn? 2 1 (daysIn year month) rest
  some rest

/-- What is left after the fraction of a second, if there is one. -/
def secondFraction? : List Char → Option (List Char)
  | '.' :: rest =>
    match rest with
    | c :: _ => if c.isDigit then some (rest.dropWhile Char.isDigit) else none
    | [] => none
  | cs => some cs

/-- What is left after a time of day. -/
def time? (cs : List Char) : Option (List Char) := do
  let (_, rest) ← digitsIn? 2 0 23 cs
  let rest ← char? ':' rest
  let (_, rest) ← digitsIn? 2 0 59 rest
  let rest ← char? ':' rest
  let (_, rest) ← digitsIn? 2 0 60 rest
  secondFraction? rest

/-- What is left after the offset of a time, if there is one. -/
def offset? : List Char → Option (List Char)
  | 'Z' :: rest => some rest
  | 'z' :: rest => some rest
  | c :: rest =>
    if c = '+' || c = '-' then do
      let (_, rest) ← digitsIn? 2 0 23 rest
      let rest ← char? ':' rest
      let (_, rest) ← digitsIn? 2 0 59 rest
      some rest
    else some (c :: rest)
  | [] => some []

/-- What is left after a date and, if one follows, a time. -/
def dateTime? (cs : List Char) : Option (List Char) := do
  let rest ← date? cs
  match rest with
  | c :: after =>
    if c = 'T' || c = 't' || c = ' ' then
      match time? after with
      | some rest => offset? rest
      | none => if c = ' ' then some rest else none
    else some rest
  | [] => some []

/-- Reads the digits of a number after its first one: digits, and single underscores
between them. The digits are collected last first. -/
def moreDigits? (isDigit : Char → Bool) (acc : List Char) : Reader (List Char)
  | '_' :: c :: rest => if isDigit c then moreDigits? isDigit (c :: acc) rest else none
  | ['_'] => none
  | c :: rest =>
    if isDigit c then moreDigits? isDigit (c :: acc) rest else some (acc.reverse, c :: rest)
  | [] => some (acc.reverse, [])

/-- Reads one digit or more. -/
def digitRun? (isDigit : Char → Bool) : Reader (List Char)
  | c :: rest => if isDigit c then moreDigits? isDigit [c] rest else none
  | [] => none

/-- Reads the whole part of a decimal number: a zero alone, or digits that begin with
another one. -/
def decimalPart? : Reader (List Char)
  | '0' :: rest => some (['0'], rest)
  | cs => digitRun? Char.isDigit cs

/-- Reads an optional sign: whether it is a minus. -/
def signOf : List Char → Bool × List Char
  | '-' :: rest => (true, rest)
  | '+' :: rest => (false, rest)
  | cs => (false, cs)

/-- The value of digits in a base. -/
def valueIn (base : Nat) (digits : List Char) : Nat :=
  digits.foldl (fun value c => value * base + (hexDigit? c).getD 0) 0

/-- A whole number that fits 64 bits with a sign. -/
def signed64? (n : Int) : Option Document :=
  if -9223372036854775808 ≤ n && n < 9223372036854775808 then some (.integer n) else none

/-- Reads a number in another base after its prefix letters. -/
def based? (base : Nat) (isDigit : Char → Bool) (cs : List Char) : Option (Document × List Char) := do
  let (digits, rest) ← digitRun? isDigit cs
  let d ← signed64? (valueIn base digits)
  some (d, rest)

/-- The least number that rounds to infinity. -/
def infinityBound : Nat := Nat.pow 2 1024 - Nat.pow 2 970

/-- Whether `digits` times ten to the power `exponent` rounds to infinity. -/
def overflows (digits : List Char) (exponent : Int) : Bool :=
  let magnitude := valueIn 10 digits
  if magnitude = 0 then false
  else
    let size : Int := (digits.dropWhile (· = '0')).length + exponent
    if size > 400 then true
    else if size < 300 then false
    else if 0 ≤ exponent then infinityBound ≤ magnitude * Nat.pow 10 exponent.toNat
    else infinityBound * Nat.pow 10 (-exponent).toNat ≤ magnitude

/-- Reads the exponent of a floating-point number, if there is one. -/
def exponent? : List Char → Option (Option Int × List Char)
  | c :: rest =>
    if c = 'e' || c = 'E' then
      let (negative, rest) := signOf rest
      match digitRun? Char.isDigit rest with
      | some (digits, rest) =>
        let n := valueIn 10 digits
        some (some (if negative then -n else n), rest)
      | none => none
    else some (none, c :: rest)
  | [] => some (none, [])

/-- Reads the fraction of a floating-point number, if there is one. -/
def fraction? : List Char → Option (Option (List Char) × List Char)
  | '.' :: rest =>
    match digitRun? Char.isDigit rest with
    | some (digits, rest) => some (some digits, rest)
    | none => none
  | cs => some (none, cs)

/-- Reads a decimal number, whole or floating-point. -/
def decimal? (cs : List Char) : Option (Document × List Char) := do
  let (negative, unsigned) := signOf cs
  let (whole, rest) ← decimalPart? unsigned
  let (fraction, rest) ← fraction? rest
  let (exponent, rest) ← exponent? rest
  match fraction, exponent with
  | none, none =>
    let n : Int := valueIn 10 whole
    let d ← signed64? (if negative then -n else n)
    some (d, rest)
  | _, _ =>
    let places := fraction.getD []
    if !negative && overflows (whole ++ places) (exponent.getD 0 - places.length) then none
    else some (.real (String.ofList (cs.take (cs.length - rest.length))), rest)

/-- Reads the names of infinity and of no number, with an optional sign. -/
def special? (cs : List Char) : Option (Document × List Char) :=
  match (signOf cs).2 with
  | 'i' :: 'n' :: 'f' :: rest => some (.real "inf", rest)
  | 'n' :: 'a' :: 'n' :: rest => some (.real "nan", rest)
  | _ => none

/-- A binary digit. -/
def isBinary (c : Char) : Bool := c = '0' || c = '1'

/-- An octal digit. -/
def isOctal (c : Char) : Bool := '0' ≤ c && c ≤ '7'

/-- A hexadecimal digit. -/
def isHex (c : Char) : Bool := (hexDigit? c).isSome

/-- Whether a text begins like a date: four digits and a hyphen. -/
def beginsDate (cs : List Char) : Bool :=
  match digits? 4 cs with
  | some (_, '-' :: _) => true
  | _ => false

/-- Whether a text begins like a time: two digits up to 23 and a colon. -/
def beginsTime (cs : List Char) : Bool :=
  match digitsIn? 2 0 23 cs with
  | some (_, ':' :: _) => true
  | _ => false

/-- A date or time as it is written, and what follows it. -/
def moment? (cs : List Char) : Option (List Char) → Option (Document × List Char)
  | some rest => some (.moment (String.ofList (cs.take (cs.length - rest.length))), rest)
  | none => none

/-- Reads a value that begins with a sign or a digit. -/
def numeric? (cs : List Char) : Option (Document × List Char) :=
  if beginsDate cs then moment? cs (dateTime? cs)
  else if beginsTime cs then moment? cs (time? cs)
  else
    match cs with
    | '0' :: 'x' :: rest => based? 16 isHex rest
    | '0' :: 'o' :: rest => based? 8 isOctal rest
    | '0' :: 'b' :: rest => based? 2 isBinary rest
    | _ =>
      match special? cs with
      | some read => some read
      | none => decimal? cs

end Leasework.Toml
