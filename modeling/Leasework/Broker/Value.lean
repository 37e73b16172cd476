import Leasework.Queue.Failure
import Leasework.Text.Numeral

/-!
# `Leasework.Broker.Value`: what a broker answers

A broker answers a command with a value or with an error. Values are read as what the
command is expected to answer; a value that is nothing of the kind is an error of its own.

* `Value.text?`, `count?`, `integer?` read single values.
* `Value.reclaimed?` reads the entries of the reclaim script.
* `Value.read?` reads the entries of a blocking read; an entry may lack a body.
-/

set_option autoImplicit false

namespace Leasework.Broker

/-- A value that a broker answers. -/
inductive Value where
  /-- Nothing. -/
  | nil
  /-- A whole number. -/
  | integer (n : Int)
  /-- A text. -/
  | bulk (s : String)
  /-- Values in order. -/
  | array (items : List Value)
deriving Repr, Inhabited

/-- An entry of a stream that is delivered to a consumer. -/
structure Entry where
  /-- Its id. -/
  id : String
  /-- How often it has been delivered. -/
  deliveries : UInt64
  /-- Its content. -/
  content : String
deriving DecidableEq, Repr

/-- An entry as it is read; it may lack a body. -/
structure RawEntry where
  /-- Its id. -/
  id : String
  /-- Its body. -/
  body : Option String
deriving DecidableEq, Repr

/-- The field of an entry that holds the content of a message. -/
def bodyField : String := "body"

namespace Value

/-! ### Single values -/

/-- A text; a whole number counts as its digits. -/
def text? : Value → Option String
  | .bulk s => some s
  | .integer n => some (toString n)
  | _ => none

/-- A count: a whole number, taken modulo 2 to the power of 64, or the digits of one. -/
def count? : Value → Option UInt64
  | .integer n => some (UInt64.ofNat (n % 18446744073709551616).toNat)
  | .bulk s => (Text.word64 s).toOption
  | _ => none

/-- A whole number, or the digits of one. -/
def integer? : Value → Option Int
  | .integer n => some n
  | .bulk s => Text.int64? s
  | _ => none

/-! ### Entries of the reclaim script -/

/-- An entry from its three parts. -/
def entry? (id deliveries content : Value) : Option Entry := do
  let id ← id.text?
  let deliveries ← deliveries.count?
  let content ← content.text?
  some ⟨id, deliveries, content⟩

/-- The entries among values: those that are lists of three. -/
def triples? : List Value → Option (List Entry)
  | [] => some []
  | .array [id, deliveries, content] :: rest => do
    let entry ← entry? id deliveries content
    let entries ← triples? rest
    some (entry :: entries)
  | _ :: rest => triples? rest

/-- The entries whose parts stand one after the other; what is left over is ignored. -/
def flatTriples? : List Value → Option (List Entry)
  | id :: deliveries :: content :: rest => do
    let entry ← entry? id deliveries content
    let entries ← flatTriples? rest
    some (entry :: entries)
  | _ => some []

/-- The entries that the reclaim script answers. -/
def reclaimed? : Value → Option (List Entry)
  | .nil => some []
  | .array items =>
    match triples? items with
    | none => none
    | some [] => flatTriples? items
    | some entries => some entries
  | _ => none

/-! ### Entries of a read -/

/-- Values in pairs. -/
def pairs? : List Value → Option (List (Value × Value))
  | [] => some []
  | [_] => none
  | a :: b :: rest => (pairs? rest).map ((a, b) :: ·)

/-- A table: values in pairs, or nothing for an empty one. -/
def table? : Value → Option (List (Value × Value))
  | .nil => some []
  | .array items => pairs? items
  | _ => none

/-- A list, or nothing for an empty one. -/
def list? : Value → Option (List Value)
  | .nil => some []
  | .array items => some items
  | _ => none

/-- The fields of an entry. -/
def fields? (v : Value) : Option (List (String × Value)) := do
  let pairs ← v.table?
  pairs.mapM fun (name, value) => name.text?.map (·, value)

/-- The body among the fields of an entry; the last field of that name counts. -/
def bodyOf (fields : List (String × Value)) : Option String :=
  (fields.reverse.lookup bodyField).bind text?

/-- The entries of a table from ids to fields. -/
def rawEntries? (v : Value) : Option (List RawEntry) := do
  let pairs ← v.table?
  pairs.mapM fun (id, fields) => do
    let id ← id.text?
    let fields ← fields? fields
    some ⟨id, bodyOf fields⟩

/-- The entries of one stream. -/
def ofStream? (v : Value) : Option (List RawEntry) := do
  let rows ← v.list?
  let entries ← rows.mapM rawEntries?
  some entries.flatten

/-- The entries of a table from streams to their entries. -/
def ofStreams? (v : Value) : Option (List RawEntry) := do
  let pairs ← v.table?
  let entries ← pairs.mapM fun (name, entries) => do
    let _ ← name.text?
    ofStream? entries
  some entries.flatten

/-- The entries that a blocking read answers. -/
def read? (v : Value) : Option (List RawEntry) := do
  let rows ← v.list?
  let entries ← rows.mapM ofStreams?
  some entries.flatten

end Value

/-! ### Answers -/

/-- What a broker answers: a value, or the text of an error. -/
abbrev Answer : Type := Except String Value

/-- The code of an error: its text up to the first space. -/
def codeOf (text : String) : String := String.ofList (text.toList.takeWhile (· ≠ ' '))

/-- The kind of error that a code stands for. -/
def faultOf (code : String) : Queue.BrokerFault :=
  if code = "LOADING" then .loading
  else if code = "TRYAGAIN" then .tryAgain
  else if code = "MASTERDOWN" then .masterDown
  else if code = "CLUSTERDOWN" then .clusterDown
  else .other code

/-- The failure of an error. -/
def errorFailure (text : String) : Queue.Failure := .broker (faultOf (codeOf text)) text

/-- The failure of an answer that is not of the expected kind. -/
def unexpected : Queue.Failure := .broker (.other "TypeError") "Response was of incompatible type"

/-- Reads an answer as what is expected. -/
def expect {α : Type} (read : Value → Option α) : Answer → Except Queue.Failure α
  | .error text => .error (errorFailure text)
  | .ok v =>
    match read v with
    | some a => .ok a
    | none => .error unexpected

/-- Whether an answer says that the broker does not know a script. -/
def isUnknownScript : Answer → Bool
  | .error text => codeOf text = "NOSCRIPT"
  | .ok _ => false

end Leasework.Broker
