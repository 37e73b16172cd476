/-!
# `Leasework.Document`: values of a configuration document

A document is what a JSON text or a TOML text says once its notation is gone. The
settings of this library are read from documents and written to documents, so one
set of reading rules serves both notations.

The two notations differ in small ways, which a `ReadingRules` value holds: what
stands for "no content", and whether a list given for a record may be too long.

* `Document.row?` reads a record: a table by field name, or a list by position.
* `Document.word?`, `text?`, `flag?`, `listOf?` read single values.
-/

set_option autoImplicit false

namespace Leasework

/-- A value of a configuration document. -/
inductive Document where
  /-- No value. -/
  | null
  /-- A truth value. -/
  | flag (b : Bool)
  /-- A whole number. -/
  | integer (n : Int)
  /-- A number that is not a whole number of the notation, as it is written. -/
  | real (literal : String)
  /-- A text. -/
  | text (s : String)
  /-- A date, a time, or both, as it is written. -/
  | moment (literal : String)
  /-- Values in order. -/
  | list (items : List Document)
  /-- Named values in order. -/
  | table (fields : List (String × Document))
deriving Repr, Inhabited

/-- Where the notations differ when a record or a choice is read. -/
structure ReadingRules where
  /-- Whether a value stands for "no content" after a choice. -/
  isUnit : Document → Bool
  /-- Whether a list that stands for a record may have more values than the record has fields. -/
  allowsExtra : Bool

/-- JSON: only `null` is no content, and a list has to fit. -/
def ReadingRules.json : ReadingRules where
  isUnit
    | .null => true
    | _ => false
  allowsExtra := false

/-- TOML: an empty table or list is no content, and further values of a list are ignored. -/
def ReadingRules.toml : ReadingRules where
  isUnit
    | .table [] => true
    | .list [] => true
    | _ => false
  allowsExtra := true

namespace Document

/-- The value of a field. -/
def field? (d : Document) (name : String) : Option Document :=
  match d with
  | .table fields => fields.lookup name
  | _ => none

/-- The columns of a record by name: a table gives them by field name, a list by the
position of the name. A date counts as a table that has none of the names. -/
def row? (rules : ReadingRules) (names : List String) : Document → Option (String → Option Document)
  | .table fields => some fun name => fields.lookup name
  | .moment _ => some fun _ => none
  | .list items =>
    if items.length ≤ names.length || rules.allowsExtra then
      some fun name => (names.zip items).lookup name
    else none
  | _ => none

/-- A text. -/
def text? : Document → Option String
  | .text s => some s
  | _ => none

/-- A truth value. -/
def flag? : Document → Option Bool
  | .flag b => some b
  | _ => none

/-- A whole number that fits 64 bits without a sign. -/
def word? : Document → Option UInt64
  | .integer n => if 0 ≤ n ∧ n < 18446744073709551616 then some (UInt64.ofNat n.toNat) else none
  | _ => none

/-- A value that may be `null`. -/
def optional? {α : Type} (read : Document → Option α) : Document → Option (Option α)
  | .null => some none
  | d => (read d).map some

/-- A list of values of one kind. -/
def listOf? {α : Type} (read : Document → Option α) : Document → Option (List α)
  | .list items => items.mapM read
  | _ => none

/-- A column that has to be there. -/
def required? {α : Type} (column : Option Document) (read : Document → Option α) : Option α :=
  column.bind read

/-- A column that may be left out. -/
def orElse? {α : Type} (column : Option Document) (fallback : α) (read : Document → Option α) :
    Option α :=
  match column with
  | none => some fallback
  | some d => read d

/-- A 64-bit number as a document. -/
def ofWord (n : UInt64) : Document := .integer n.toNat

/-- The numbers that are written are read again. -/
theorem word?_ofWord (n : UInt64) : word? (ofWord n) = some n := by
  have h : n.toNat < 18446744073709551616 := n.toNat_lt
  have h2 : (n.toNat : Int) < 18446744073709551616 := by omega
  simp only [ofWord, word?, Int.natCast_nonneg, h2, and_self, if_true, Int.toNat_natCast,
    UInt64.ofNat_toNat]

end Document

end Leasework
