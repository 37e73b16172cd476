import Leasework.Shell.Word

/-!
# `Leasework.Shell.Sum`: sums of whole numbers

A sum adds and subtracts products, a product multiplies and divides factors, and a factor
is a number, a variable, or a sum in parentheses. Division goes toward zero.
-/

set_option autoImplicit false

namespace Leasework.Shell.Sum

/-- The blanks in front are skipped. -/
def skipGaps (cs : List Char) : List Char := cs.dropWhile fun c => isGap c || c = '\n'

mutual

/-- The value of a sum, and what follows. -/
def sum? (value : String → Int) (fuel : Nat) (cs : List Char) : Option (Int × List Char) :=
  match fuel with
  | 0 => none
  | fuel + 1 => do
    let (n, rest) ← product? value fuel cs
    addOnto value fuel n rest

/-- Adds what follows. -/
def addOnto (value : String → Int) (fuel : Nat) (n : Int) (cs : List Char) :
    Option (Int × List Char) :=
  match fuel with
  | 0 => none
  | fuel + 1 =>
    match skipGaps cs with
    | '+' :: rest => do
      let (m, rest) ← product? value fuel rest
      addOnto value fuel (n + m) rest
    | '-' :: rest => do
      let (m, rest) ← product? value fuel rest
      addOnto value fuel (n - m) rest
    | rest => some (n, rest)

/-- The value of a product, and what follows. -/
def product? (value : String → Int) (fuel : Nat) (cs : List Char) : Option (Int × List Char) :=
  match fuel with
  | 0 => none
  | fuel + 1 => do
    let (n, rest) ← factor? value fuel cs
    multiplyOnto value fuel n rest

/-- Multiplies with what follows. -/
def multiplyOnto (value : String → Int) (fuel : Nat) (n : Int) (cs : List Char) :
    Option (Int × List Char) :=
  match fuel with
  | 0 => none
  | fuel + 1 =>
    match skipGaps cs with
    | '*' :: rest => do
      let (m, rest) ← factor? value fuel rest
      multiplyOnto value fuel (n * m) rest
    | '/' :: rest => do
      let (m, rest) ← factor? value fuel rest
      if m = 0 then none else multiplyOnto value fuel (Int.tdiv n m) rest
    | '%' :: rest => do
      let (m, rest) ← factor? value fuel rest
      if m = 0 then none else multiplyOnto value fuel (Int.tmod n m) rest
    | rest => some (n, rest)

/-- The value of a factor, and what follows. -/
def factor? (value : String → Int) (fuel : Nat) (cs : List Char) : Option (Int × List Char) :=
  match fuel with
  | 0 => none
  | fuel + 1 =>
    match skipGaps cs with
    | '-' :: rest => (factor? value fuel rest).map fun (n, rest) => (-n, rest)
    | '(' :: rest => do
      let (n, rest) ← sum? value fuel rest
      match skipGaps rest with
      | ')' :: rest => some (n, rest)
      | _ => none
    | '$' :: rest => (splitName rest).map fun (name, rest) => (value name, rest)
    | c :: rest =>
      if c.isDigit then
        let digits := c :: rest.takeWhile Char.isDigit
        let n := digits.foldl (fun n d => n * 10 + (d.toNat - '0'.toNat)) 0
        some ((n : Nat), rest.dropWhile Char.isDigit)
      else if beginsName c then
        (splitName (c :: rest)).map fun (name, rest) => (value name, rest)
      else none
    | [] => none

end

/-- The value of a sum, if it is one. -/
def value? (value : String → Int) (s : String) : Option Int :=
  let cs := s.toList
  match sum? value (8 * cs.length + 8) cs with
  | some (n, rest) => if (skipGaps rest).isEmpty then some n else none
  | none => none

end Leasework.Shell.Sum
