/-!
# `Leasework.Toml.Lexeme`: the smallest parts of a TOML text

White space, line ends, comments, keys and the four forms of strings, after TOML
1.0. A reader takes the characters that are left and answers what it read and the
characters after it, or `none` where the text breaks a rule.
-/

set_option autoImplicit false

namespace Leasework.Toml

/-- Takes something off the front of a text. -/
abbrev Reader (α : Type) : Type := List Char → Option (α × List Char)

/-- A space or a tab. -/
def isSpace (c : Char) : Bool := c = ' ' || c = '\t'

/-- What is left after white space within a line. -/
def skipSpace (cs : List Char) : List Char := cs.dropWhile isSpace

/-- A character that may stand in a comment or a literal string: no control character
but the tab. -/
def isPlain (c : Char) : Bool := c = '\t' || (0x20 ≤ c.toNat && c.toNat ≠ 0x7F)

/-- A line end: a line feed, or a carriage return and a line feed. -/
def newline? : List Char → Option (List Char)
  | '\n' :: rest => some rest
  | '\r' :: '\n' :: rest => some rest
  | _ => none

/-- What is left after a comment, if the text goes on with one. -/
def skipComment : List Char → List Char
  | '#' :: rest => rest.dropWhile isPlain
  | cs => cs

/-- The end of a line after a statement: white space, a comment, and a line end or
the end of the text. -/
def endOfLine? (cs : List Char) : Option (List Char) :=
  match skipComment (skipSpace cs) with
  | [] => some []
  | rest => newline? rest

/-- White space, comments and line ends in any number; `fuel` bounds the lines. -/
def skipLines (fuel : Nat) (cs : List Char) : List Char :=
  match fuel with
  | 0 => cs
  | fuel + 1 =>
    let rest := skipComment (skipSpace cs)
    match newline? rest with
    | some rest => skipLines fuel rest
    | none => rest

/-- A character of a bare key. -/
def isBareKey (c : Char) : Bool := c.isAlphanum || c = '_' || c = '-'

/-- The value of a hexadecimal digit. -/
def hexDigit? (c : Char) : Option Nat :=
  if '0' ≤ c ∧ c ≤ '9' then some (c.toNat - '0'.toNat)
  else if 'a' ≤ c ∧ c ≤ 'f' then some (c.toNat - 'a'.toNat + 10)
  else if 'A' ≤ c ∧ c ≤ 'F' then some (c.toNat - 'A'.toNat + 10)
  else none

/-- The character named by hexadecimal digits, if it is a Unicode scalar value. -/
def namedChar? (digits : List Char) : Option Char := do
  let n ← digits.foldlM (fun value c => (hexDigit? c).map (value * 16 + ·)) 0
  if n < 0xD800 || (0xE000 ≤ n && n < 0x110000) then some (Char.ofNat n) else none

/-- Reads an escape after its backslash. -/
def escape? : Reader Char
  | 'b' :: rest => some ('\x08', rest)
  | 't' :: rest => some ('\t', rest)
  | 'n' :: rest => some ('\n', rest)
  | 'f' :: rest => some ('\x0c', rest)
  | 'r' :: rest => some ('\r', rest)
  | '"' :: rest => some ('"', rest)
  | '\\' :: rest => some ('\\', rest)
  | 'u' :: a :: b :: c :: d :: rest => (namedChar? [a, b, c, d]).map (·, rest)
  | 'U' :: a :: b :: c :: d :: e :: f :: g :: h :: rest =>
    (namedChar? [a, b, c, d, e, f, g, h]).map (·, rest)
  | _ => none

/-- Reads a basic string after its opening mark. -/
def basicTail? (fuel : Nat) (acc : List Char) (cs : List Char) : Option (String × List Char) :=
  match fuel with
  | 0 => none
  | fuel + 1 =>
    match cs with
    | '"' :: rest => some (String.ofList acc.reverse, rest)
    | '\\' :: rest =>
      match escape? rest with
      | some (c, rest) => basicTail? fuel (c :: acc) rest
      | none => none
    | c :: rest => if isPlain c then basicTail? fuel (c :: acc) rest else none
    | [] => none

/-- Reads a literal string after its opening mark. -/
def literalTail? (acc : List Char) : Reader String
  | '\'' :: rest => some (String.ofList acc.reverse, rest)
  | c :: rest => if isPlain c then literalTail? (c :: acc) rest else none
  | [] => none

/-- Reads a run of closing marks: two at most belong to the text, three end it. -/
def closing? (mark : Char) (acc : List Char) (cs : List Char) :
    Option (String × List Char) ⊕ (List Char × List Char) :=
  let run := (cs.takeWhile (· = mark)).length
  let rest := cs.dropWhile (· = mark)
  if run < 3 then .inr (List.replicate run mark ++ acc, rest)
  else if run ≤ 5 then .inl (some (String.ofList (List.replicate (run - 3) mark ++ acc).reverse, rest))
  else .inl none

/-- What is left after a backslash at a line end: all white space and line ends. -/
def skipFolded (fuel : Nat) (cs : List Char) : List Char :=
  match fuel with
  | 0 => cs
  | fuel + 1 =>
    let rest := skipSpace cs
    match newline? rest with
    | some rest => skipFolded fuel rest
    | none => rest

/-- Reads a basic string of several lines after its opening marks. -/
def basicLines? (fuel : Nat) (acc : List Char) (cs : List Char) : Option (String × List Char) :=
  match fuel with
  | 0 => none
  | fuel + 1 =>
    match cs with
    | '"' :: _ =>
      match closing? '"' acc cs with
      | .inl done => done
      | .inr (acc, rest) => basicLines? fuel acc rest
    | '\\' :: rest =>
      match newline? (skipSpace rest) with
      | some folded => basicLines? fuel acc (skipFolded cs.length folded)
      | none =>
        match escape? rest with
        | some (c, rest) => basicLines? fuel (c :: acc) rest
        | none => none
    | '\n' :: rest => basicLines? fuel ('\n' :: acc) rest
    | '\r' :: '\n' :: rest => basicLines? fuel ('\n' :: acc) rest
    | c :: rest => if isPlain c then basicLines? fuel (c :: acc) rest else none
    | [] => none

/-- Reads a literal string of several lines after its opening marks. -/
def literalLines? (fuel : Nat) (acc : List Char) (cs : List Char) : Option (String × List Char) :=
  match fuel with
  | 0 => none
  | fuel + 1 =>
    match cs with
    | '\'' :: _ =>
      match closing? '\'' acc cs with
      | .inl done => done
      | .inr (acc, rest) => literalLines? fuel acc rest
    | '\n' :: rest => literalLines? fuel ('\n' :: acc) rest
    | '\r' :: '\n' :: rest => literalLines? fuel ('\n' :: acc) rest
    | c :: rest => if isPlain c then literalLines? fuel (c :: acc) rest else none
    | [] => none

/-- Drops the line end right after the marks that open a text of several lines. -/
def dropFirstNewline (cs : List Char) : List Char := (newline? cs).getD cs

/-- Reads a string in one of its four forms. -/
def string? (cs : List Char) : Option (String × List Char) :=
  let fuel := cs.length + 1
  match cs with
  | '"' :: '"' :: '"' :: rest => basicLines? fuel [] (dropFirstNewline rest)
  | '"' :: rest => basicTail? fuel [] rest
  | '\'' :: '\'' :: '\'' :: rest => literalLines? fuel [] (dropFirstNewline rest)
  | '\'' :: rest => literalTail? [] rest
  | _ => none

/-- Reads one part of a key: bare, or a string on one line. -/
def keyPart? (cs : List Char) : Option (String × List Char) :=
  match cs with
  | '"' :: rest => basicTail? (cs.length + 1) [] rest
  | '\'' :: rest => literalTail? [] rest
  | _ =>
    let name := cs.takeWhile isBareKey
    if name.isEmpty then none else some (String.ofList name, cs.dropWhile isBareKey)

/-- Reads the parts of a key after the ones in `acc`, the last of which comes first. -/
def keyParts? (fuel : Nat) (acc : List String) (cs : List Char) :
    Option (List String × List Char) :=
  match fuel with
  | 0 => none
  | fuel + 1 =>
    match keyPart? (skipSpace cs) with
    | none => none
    | some (name, rest) =>
      match skipSpace rest with
      | '.' :: rest => keyParts? fuel (name :: acc) rest
      | rest => some ((name :: acc).reverse, rest)

/-- The most levels a value or a key may have, plus one. -/
def depthLimit : Nat := 80

/-- Reads a key and the white space around it. -/
def key? (cs : List Char) : Option (List String × List Char) :=
  match keyParts? (cs.length + 1) [] cs with
  | some (path, rest) => if path.length < depthLimit then some (path, rest) else none
  | none => none

end Leasework.Toml
