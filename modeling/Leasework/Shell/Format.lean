import Leasework.Text.Utf8

/-!
# `Leasework.Shell.Format`: escapes, and values written after a pattern

A backslash begins an escape. An octal escape stands for one byte, so what is written
need not be a text.

A pattern is copied, and every directive in it writes the next value: `%s` a text, `%d` a
number, and so on. The pattern is used again as long as values are left, and a value that
is missing counts as empty or as zero.
-/

set_option autoImplicit false

namespace Leasework.Shell

/-- The bytes of a text. -/
abbrev Bytes : Type := List UInt8

/-- The bytes of one character. -/
def bytesOf (c : Char) : Bytes := Text.encode (String.singleton c)

/-! ### Escapes -/

/-- An octal digit. -/
def isOctal (c : Char) : Bool := '0' ≤ c && c ≤ '7'

/-- The value of digits in a base up to ten. -/
def valueIn (base : Nat) (cs : List Char) : Nat :=
  cs.foldl (fun value c => value * base + (c.toNat - '0'.toNat)) 0

/-- The character for which a letter stands behind a backslash. -/
def letterEscape? : Char → Option Char
  | '\\' => some '\\'
  | 'a' => some '\x07'
  | 'b' => some '\x08'
  | 'f' => some '\x0c'
  | 'n' => some '\n'
  | 'r' => some '\r'
  | 't' => some '\t'
  | 'v' => some '\x0b'
  | _ => none

/-- What an escape stands for, behind its backslash. A backslash that begins no escape
stands for itself. -/
def escape (cs : List Char) : Bytes × List Char :=
  match cs with
  | [] => (bytesOf '\\', [])
  | c :: rest =>
    if isOctal c then
      let digits := (cs.take 3).takeWhile isOctal
      ([UInt8.ofNat (valueIn 8 digits)], cs.drop digits.length)
    else
      match letterEscape? c with
      | some e => (bytesOf e, rest)
      | none => (bytesOf '\\', cs)

/-- The value of a hexadecimal digit. -/
def hexadecimal? (c : Char) : Option Nat :=
  if c.isDigit then some (c.toNat - '0'.toNat)
  else if 'a' ≤ c.toLower && c.toLower ≤ 'f' then some (c.toLower.toNat - 'a'.toNat + 10)
  else none

/-- The value of hexadecimal digits. -/
def hexadecimal (cs : List Char) : Nat :=
  cs.foldl (fun value c => value * 16 + (hexadecimal? c).getD 0) 0

/-- What an escape stands for where there are also a letter for the escape character and
bytes in hexadecimal digits. -/
def richEscape (cs : List Char) : Bytes × List Char :=
  match cs with
  | 'e' :: rest => ([0x1B], rest)
  | 'x' :: rest =>
    let digits := (rest.take 2).takeWhile fun c => (hexadecimal? c).isSome
    if digits.isEmpty then escape cs
    else ([UInt8.ofNat (hexadecimal digits)], rest.drop digits.length)
  | _ => escape cs

/-- Expands the escapes of a text, in which an octal escape may begin with a zero of its
own, and one escape ends all output. The flag says whether it was met. -/
def expandFrom (escape : List Char → Bytes × List Char) (fuel : Nat) (acc : Bytes)
    (cs : List Char) : Bytes × Bool :=
  match fuel with
  | 0 => (acc.reverse, false)
  | fuel + 1 =>
    match cs with
    | [] => (acc.reverse, false)
    | '\\' :: 'c' :: _ => (acc.reverse, true)
    | '\\' :: '0' :: rest =>
      let digits := (rest.take 3).takeWhile isOctal
      let byte := UInt8.ofNat (valueIn 8 digits)
      expandFrom escape fuel (byte :: acc) (rest.drop digits.length)
    | '\\' :: rest =>
      let (bytes, rest) := escape rest
      expandFrom escape fuel (bytes.reverse ++ acc) rest
    | c :: rest => expandFrom escape fuel ((bytesOf c).reverse ++ acc) rest

/-- Expands the escapes of a text. -/
def expand (s : String) (escape : List Char → Bytes × List Char) : Bytes × Bool :=
  let cs := s.toList
  expandFrom escape (cs.length + 1) [] cs

/-! ### Numbers -/

/-- A number at the beginning of a text, and what follows it. -/
def leadingNumber (cs : List Char) : Option (Int × List Char) :=
  let (negative, cs) :=
    match cs with
    | '-' :: rest => (true, rest)
    | '+' :: rest => (false, rest)
    | _ => (false, cs)
  let found : Option (Nat × List Char) :=
    match cs with
    | '0' :: x :: rest =>
      if x = 'x' || x = 'X' then
        let digits := rest.takeWhile fun c => (hexadecimal? c).isSome
        some (hexadecimal digits, rest.drop digits.length)
      else
        let digits := (x :: rest).takeWhile isOctal
        some (valueIn 8 digits, (x :: rest).drop digits.length)
    | _ =>
      let digits := cs.takeWhile Char.isDigit
      if digits.isEmpty then none else some (valueIn 10 digits, cs.drop digits.length)
  found.map fun (n, rest) => (if negative then -(n : Int) else n, rest)

/-- A value as a number, with the complaint about one that is none. -/
def numberOf (s : String) : Int × Option String :=
  match s.toList with
  | [] => (0, none)
  | c :: rest =>
    if c = '"' || c.toNat = 0x27 then (((rest.head?.map Char.toNat).getD 0 : Nat), none)
    else
      match leadingNumber (c :: rest) with
      | some (n, []) => (n, none)
      | some (n, _) => (n, some (s ++ ": not completely converted"))
      | none => (0, some (s ++ ": expected numeric value"))

/-! ### Patterns -/

/-- What stands between the percent sign and the letter of a directive. -/
structure Layout where
  /-- The value stands at the left of its field. -/
  left : Bool
  /-- The field is filled with zeros. -/
  zero : Bool
  /-- A number that is not negative has a plus sign. -/
  plus : Bool
  /-- The least width. -/
  width : Nat
  /-- The precision. -/
  precision : Option Nat
deriving DecidableEq, Repr

/-- Reads a layout, and what follows it. -/
def layout (cs : List Char) : Layout × List Char :=
  let flags := cs.takeWhile fun c => "#-+ 0".toList.contains c
  let rest := cs.drop flags.length
  let width := rest.takeWhile Char.isDigit
  let rest := rest.drop width.length
  let (precision, rest) :=
    match rest with
    | '.' :: more =>
      let digits := more.takeWhile Char.isDigit
      (some (valueIn 10 digits), more.drop digits.length)
    | _ => (none, rest)
  (⟨flags.contains '-', flags.contains '0', flags.contains '+', valueIn 10 width, precision⟩, rest)

/-- Fills a field with spaces. -/
def Layout.pad (l : Layout) (bytes : Bytes) : Bytes :=
  let gap := List.replicate (l.width - bytes.length) 0x20
  if l.left then bytes ++ gap else gap ++ bytes

/-- A number in its field. -/
def Layout.number (l : Layout) (sign digits : String) : Bytes :=
  let least := List.replicate ((l.precision.getD 1) - digits.length) '0'
  let digits := String.ofList least ++ digits
  let used := sign.length + digits.length
  if l.zero && !l.left && l.precision.isNone then
    Text.encode (sign ++ String.ofList (List.replicate (l.width - used) '0') ++ digits)
  else l.pad (Text.encode (sign ++ digits))

/-- The digits of a number in a base. -/
def digitsIn (base : Nat) (n : Nat) : String := String.ofList (Nat.toDigits base n)

/-- What has been written after a pattern. -/
structure Written where
  /-- What has been written. -/
  bytes : Bytes
  /-- The complaints about values. -/
  complaints : List String
  /-- Whether an escape has ended the output. -/
  stopped : Bool
  /-- Whether the pattern is wrong. -/
  wrong : Bool
deriving DecidableEq, Repr

/-- Stops at a directive that is wrong. -/
def Written.refuse (w : Written) (complaint : String) : Written :=
  { w with complaints := w.complaints ++ [complaint], stopped := true, wrong := true }

/-- Writes one value as a directive says. -/
def directive (l : Layout) (letter : Char) (value : String) : Option Written :=
  let signed (n : Int) : String := if n < 0 then "-" else if l.plus then "+" else ""
  let unsigned (n : Int) : Nat := (n % 18446744073709551616).toNat
  let (n, complaint) := numberOf value
  let number (sign digits : String) : Option Written :=
    some ⟨l.number sign digits, complaint.toList, false, false⟩
  if letter = 's' then
    let bytes := Text.encode value
    some ⟨l.pad (match l.precision with | some p => bytes.take p | none => bytes), [], false, false⟩
  else if letter = 'b' then
    let (bytes, stopped) := expand value escape
    some ⟨l.pad bytes, [], stopped, false⟩
  else if letter = 'c' then some ⟨l.pad ((Text.encode value).take 1), [], false, false⟩
  else if letter = 'd' || letter = 'i' then number (signed n) (digitsIn 10 n.natAbs)
  else if letter = 'u' then number "" (digitsIn 10 (unsigned n))
  else if letter = 'o' then number "" (digitsIn 8 (unsigned n))
  else if letter = 'x' then number "" (digitsIn 16 (unsigned n))
  else if letter = 'X' then number "" (digitsIn 16 (unsigned n)).toUpper
  else none

/-- Goes through a pattern once. The values that are left come last. -/
def patternOnce (fuel : Nat) (w : Written) (values : List String) (cs : List Char) :
    Written × List String :=
  match fuel with
  | 0 => (w, values)
  | fuel + 1 =>
    match cs with
    | [] => (w, values)
    | '\\' :: rest =>
      let (bytes, rest) := escape rest
      patternOnce fuel { w with bytes := w.bytes ++ bytes } values rest
    | '%' :: '%' :: rest =>
      patternOnce fuel { w with bytes := w.bytes ++ bytesOf '%' } values rest
    | '%' :: rest =>
      let (l, rest) := layout rest
      match rest with
      | [] => (w.refuse "missing format character", values)
      | letter :: rest =>
        match directive l letter (values.headD "") with
        | some one =>
          let w := ⟨w.bytes ++ one.bytes, w.complaints ++ one.complaints, one.stopped, false⟩
          if one.stopped then (w, values.drop 1) else patternOnce fuel w (values.drop 1) rest
        | none => (w.refuse ("%" ++ String.singleton letter ++ ": invalid directive"), values)
    | c :: rest => patternOnce fuel { w with bytes := w.bytes ++ bytesOf c } values rest

/-- Goes through a pattern till no value is left, at least once. A pattern that uses none
is not gone through again. -/
def patternFrom (fuel : Nat) (w : Written) (values : List String) (cs : List Char) : Written :=
  match fuel with
  | 0 => w
  | fuel + 1 =>
    let (w, rest) := patternOnce (cs.length + 1) w values cs
    if w.stopped || rest.isEmpty || rest.length = values.length then w
    else patternFrom fuel w rest cs

/-- Writes values after a pattern. -/
def pattern (s : String) (values : List String) : Written :=
  patternFrom (values.length + 1) ⟨[], [], false, false⟩ values s.toList

end Leasework.Shell
