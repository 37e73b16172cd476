import Leasework.Toml.Scalar
import Leasework.Toml.Tree

/-!
# `Leasework.Toml.Text`: TOML texts as documents

`Toml.read?` reads a whole text. Each statement takes a line: a key with a value, the
header of a table, or the header of one more table of a series. Lists and inline
tables nest to a fixed depth.
-/

set_option autoImplicit false

namespace Leasework.Toml

/-- Reads the values of a list after its bracket, up to the closing one. -/
def listTail? (value? : Reader Document) (fuel : Nat) (acc : List Document) (cs : List Char) :
    Option (Document × List Char) :=
  match fuel with
  | 0 => none
  | fuel + 1 =>
    match skipLines cs.length cs with
    | ']' :: rest => some (.list acc.reverse, rest)
    | cs =>
      match value? cs with
      | none => none
      | some (d, rest) =>
        match skipLines rest.length rest with
        | ',' :: rest => listTail? value? fuel (d :: acc) rest
        | ']' :: rest => some (.list (d :: acc).reverse, rest)
        | _ => none

/-- Reads the keys of an inline table up to its closing brace. -/
def inlineTail? (value? : Reader Document) (fuel : Nat) (acc : Tree) (cs : List Char) :
    Option (Document × List Char) :=
  match fuel with
  | 0 => none
  | fuel + 1 =>
    match key? cs with
    | some (path, '=' :: rest) =>
      match value? (skipSpace rest) with
      | none => none
      | some (d, rest) =>
        match acc.setKey path (inlineLeaf d) with
        | none => none
        | some acc =>
          match skipSpace rest with
          | ',' :: rest => inlineTail? value? fuel acc rest
          | '\x7d' :: rest => some (acc.toDocument, rest)
          | _ => none
    | _ => none
where
  /-- A value of an inline table is finished: no key reaches into it. -/
  inlineLeaf (d : Document) : Tree := .leaf d

/-- Reads a value; `depth` bounds how far lists and inline tables may nest in it. -/
def value? (depth : Nat) (cs : List Char) : Option (Document × List Char) :=
  match cs with
  | '"' :: _ => (string? cs).map fun (s, rest) => (.text s, rest)
  | '\'' :: _ => (string? cs).map fun (s, rest) => (.text s, rest)
  | 't' :: 'r' :: 'u' :: 'e' :: rest => some (.flag true, rest)
  | 'f' :: 'a' :: 'l' :: 's' :: 'e' :: rest => some (.flag false, rest)
  | '[' :: rest =>
    match depth with
    | 0 => none
    | depth + 1 => listTail? (value? depth) (rest.length + 1) [] rest
  | '\x7b' :: rest =>
    match depth with
    | 0 => none
    | depth + 1 =>
      match skipSpace rest with
      | '\x7d' :: rest => some (.table [], rest)
      | rest => inlineTail? (value? depth) (rest.length + 1) .empty rest
  | c :: _ =>
    if c.isDigit || c = '+' || c = '-' then numeric? cs
    else if c = 'i' || c = 'n' then special? cs
    else none
  | [] => none

/-- Reads one statement and the end of its line. -/
def statement? (b : Draft) (cs : List Char) : Option (Draft × List Char) :=
  match cs with
  | '[' :: '[' :: rest =>
    match key? rest with
    | some (path, ']' :: ']' :: rest) => do
      let b ← b.beginSeries path
      let rest ← endOfLine? rest
      some (b, rest)
    | _ => none
  | '[' :: rest =>
    match key? rest with
    | some (path, ']' :: rest) => do
      let b ← b.beginTable path
      let rest ← endOfLine? rest
      some (b, rest)
    | _ => none
  | _ =>
    match key? cs with
    | some (path, '=' :: rest) => do
      let (d, rest) ← value? (depthLimit - 1) (skipSpace rest)
      let b ← b.setKey path d
      let rest ← endOfLine? rest
      some (b, rest)
    | _ => none

/-- Reads statements to the end of the text. -/
def statements? (fuel : Nat) (b : Draft) (cs : List Char) : Option Draft :=
  match fuel with
  | 0 => none
  | fuel + 1 =>
    match skipLines cs.length cs with
    | [] => some b
    | cs =>
      match statement? b cs with
      | some (b, rest) => statements? fuel b rest
      | none => none

/-- A byte order mark in front of a text says nothing. -/
def dropMark : List Char → List Char
  | '\uFEFF' :: rest => rest
  | cs => cs

/-- Reads a TOML text. -/
def read? (s : String) : Option Document :=
  let cs := dropMark s.toList
  (statements? (cs.length + 1) .start cs).bind Draft.finish

end Leasework.Toml
