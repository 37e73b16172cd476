import Leasework.Document

/-!
# `Leasework.Queue.Kind`: the two families of queues

A broker pushes messages and keeps lock tokens, a polling service has to be asked.
A document names a kind by its name or by its product in lower case; a command line
takes either spelling in any ASCII case.
-/

set_option autoImplicit false

namespace Leasework.Queue

/-- The family a queue belongs to. -/
inductive Kind where
  /-- A broker that pushes messages. -/
  | broker
  /-- A service that has to be polled. -/
  | polling
deriving DecidableEq, Repr

namespace Kind

/-- The name of a kind. -/
def name : Kind → String
  | .broker => "broker"
  | .polling => "polling"

/-- The kind of a name, or of the product that stands for it. -/
def ofName? (s : String) : Option Kind :=
  if s = "broker" || s = "redis" then some .broker
  else if s = "polling" || s = "sqs" then some .polling
  else none

/-- The kind of a name in any ASCII case. -/
def parse? (s : String) : Option Kind := ofName? (String.ofList (s.toList.map Char.toLower))

/-- Reads a kind: its name, or a table whose one entry has the name and no content. -/
def read? (rules : ReadingRules) : Document → Option Kind
  | .text s => ofName? s
  | .table [(s, d)] => if rules.isUnit d then ofName? s else none
  | _ => none

/-- The wording when a command line names no kind. -/
def unknownMessage : String := "Matching variant not found"

theorem ofName?_name (k : Kind) : ofName? k.name = some k := by cases k <;> rfl

end Kind

end Leasework.Queue
