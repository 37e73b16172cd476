import Leasework.Document
import Leasework.Json.Quoted

/-!
# `Leasework.Json.Text`: documents as JSON texts

`Json.render` writes a document on one line, `Json.read?` reads a text that holds one
value. A whole number that fits no 64-bit integer, signed or not, counts as a real
number, like a negative zero and like one with a fraction or an exponent.
-/

set_option autoImplicit false

namespace Leasework.Json

mutual

/-- Writes a document at the end of a text. -/
def pushDocument (out : String) : Document → String
  | .null => out ++ "null"
  | .flag b => out ++ (if b then "true" else "false")
  | .integer n => out ++ toString n
  | .real literal => out ++ literal
  | .text s => pushQuoted out s
  | .moment literal => pushQuoted out literal
  | .list items => (pushItems (out.push '[') true items).push ']'
  | .table fields => (pushFields (out.push '\x7b') true fields).push '\x7d'

/-- Writes values with commas between them. -/
def pushItems (out : String) (first : Bool) : List Document → String
  | [] => out
  | d :: rest => pushItems (pushDocument (if first then out else out.push ',') d) false rest

/-- Writes named values with commas between them. -/
def pushFields (out : String) (first : Bool) : List (String × Document) → String
  | [] => out
  | (name, d) :: rest =>
    let out := pushQuoted (if first then out else out.push ',') name
    pushFields (pushDocument (out.push ':') d) false rest

end

/-- A document as a JSON text on one line. -/
def render (d : Document) : String := pushDocument "" d

/-- JSON knows four white space characters. -/
def isSpace (c : Char) : Bool := c = ' ' || c = '\t' || c = '\n' || c = '\r'

/-- What is left after white space. -/
def skipSpace (cs : List Char) : List Char := cs.dropWhile isSpace

/-- Whether a character may stand in a number. -/
def isNumberPart (c : Char) : Bool :=
  c.isDigit || c = '-' || c = '+' || c = '.' || c = 'e' || c = 'E'

/-- One or more digits, and what follows. -/
def digitRun? (cs : List Char) : Option (List Char) :=
  match cs with
  | c :: rest => if c.isDigit then some (rest.dropWhile Char.isDigit) else none
  | [] => none

/-- The whole part of a number: a zero alone, or digits that begin with another one. -/
def wholePart? : List Char → Option (List Char)
  | '0' :: rest => some rest
  | cs => digitRun? cs

/-- The fraction of a number, if it has one. -/
def fractionPart? : List Char → Option (List Char)
  | '.' :: rest => digitRun? rest
  | cs => some cs

/-- The exponent of a number, if it has one. -/
def exponentPart? : List Char → Option (List Char)
  | c :: rest =>
    if c = 'e' || c = 'E' then
      match rest with
      | '+' :: digits => digitRun? digits
      | '-' :: digits => digitRun? digits
      | digits => digitRun? digits
    else some (c :: rest)
  | [] => some []

/-- Reads a literal made of the characters of a number. -/
def number? (literal : List Char) : Option Document := do
  let (negative, digits) :=
    match literal with
    | '-' :: rest => (true, rest)
    | cs => (false, cs)
  let afterWhole ← wholePart? digits
  if afterWhole.isEmpty then
    let magnitude : Nat :=
      digits.foldl (fun value c => value * 10 + (c.toNat - '0'.toNat)) 0
    let n : Int := if negative then -magnitude else magnitude
    if -9223372036854775808 ≤ n && n < 18446744073709551616 && !(negative && magnitude = 0) then some (.integer n)
    else some (.real (String.ofList literal))
  else
    let rest ← fractionPart? afterWhole
    let rest ← exponentPart? rest
    if rest.isEmpty then some (.real (String.ofList literal)) else none

/-- Puts a named value in front. A name that comes twice keeps the later value. -/
def putField (name : String) (d : Document) (acc : List (String × Document)) :
    List (String × Document) :=
  (name, d) :: acc.filter (·.1 ≠ name)

mutual

/-- Reads one value; `fuel` bounds the nesting. -/
def value? (fuel : Nat) (cs : List Char) : Option (Document × List Char) :=
  match fuel with
  | 0 => none
  | fuel + 1 =>
    match skipSpace cs with
    | 'n' :: 'u' :: 'l' :: 'l' :: rest => some (.null, rest)
    | 't' :: 'r' :: 'u' :: 'e' :: rest => some (.flag true, rest)
    | 'f' :: 'a' :: 'l' :: 's' :: 'e' :: rest => some (.flag false, rest)
    | '"' :: rest => (literalTail [] rest).map fun (s, rest) => (.text s, rest)
    | '[' :: rest =>
      match skipSpace rest with
      | ']' :: rest => some (.list [], rest)
      | rest => (items? fuel rest []).map fun (ds, rest) => (.list ds, rest)
    | '\x7b' :: rest =>
      match skipSpace rest with
      | '\x7d' :: rest => some (.table [], rest)
      | rest => (fields? fuel rest []).map fun (fs, rest) => (.table fs, rest)
    | rest => do
      let d ← number? (rest.takeWhile isNumberPart)
      some (d, rest.dropWhile isNumberPart)

/-- Reads the values of a list up to its closing bracket. -/
def items? (fuel : Nat) (cs : List Char) (acc : List Document) :
    Option (List Document × List Char) :=
  match fuel with
  | 0 => none
  | fuel + 1 =>
    match value? fuel cs with
    | none => none
    | some (d, rest) =>
      match skipSpace rest with
      | ',' :: rest => items? fuel rest (d :: acc)
      | ']' :: rest => some ((d :: acc).reverse, rest)
      | _ => none

/-- Reads the named values of a table up to its closing brace. -/
def fields? (fuel : Nat) (cs : List Char) (acc : List (String × Document)) :
    Option (List (String × Document) × List Char) :=
  match fuel with
  | 0 => none
  | fuel + 1 =>
    match skipSpace cs with
    | '"' :: rest =>
      match literalTail [] rest with
      | none => none
      | some (name, rest) =>
        match skipSpace rest with
        | ':' :: rest =>
          match value? fuel rest with
          | none => none
          | some (d, rest) =>
            match skipSpace rest with
            | ',' :: rest => fields? fuel rest (putField name d acc)
            | '\x7d' :: rest => some ((putField name d acc).reverse, rest)
            | _ => none
        | _ => none
    | _ => none

end

/-- Reads a text that holds one value and white space around it. -/
def read? (s : String) : Option Document :=
  let cs := s.toList
  match value? (cs.length + 1) cs with
  | some (d, rest) => if (skipSpace rest).isEmpty then some d else none
  | none => none

end Leasework.Json
