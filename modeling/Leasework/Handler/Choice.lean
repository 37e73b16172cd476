import Leasework.Document

/-!
# `Leasework.Handler.Choice`: which handler answers requests

A document picks the handler by the field `name`: one that gives the request back, or
one that runs a program. A list may stand for the table, with the name in front.
-/

set_option autoImplicit false

namespace Leasework.Handler

/-- The handler a document picks. -/
inductive Choice where
  /-- Answers with the request itself. -/
  | echo
  /-- Runs a program with arguments for every request. -/
  | program (path : String) (arguments : List String)
deriving DecidableEq, Repr

namespace Choice

/-- Reads the program and its arguments. -/
def readProgram? (rules : ReadingRules) (d : Document) : Option Choice := do
  let row ← d.row? rules ["program", "args"]
  let path ← Document.required? (row "program") Document.text?
  let arguments ← Document.orElse? (row "args") [] (Document.listOf? Document.text?)
  some (.program path arguments)

/-- Reads the choice of a handler. What follows the name in a list has to fit in every
notation. -/
def read? (rules : ReadingRules) : Document → Option Choice
  | .table fields =>
    match fields.lookup "name" with
    | some (.text "echo") => some .echo
    | some (.text "cgi") => readProgram? rules (.table fields)
    | _ => none
  | .list (.text "echo" :: rest) => if rest.isEmpty then some .echo else none
  | .list (.text "cgi" :: rest) => readProgram? .json (.list rest)
  | _ => none

/-- Writes the choice of a handler as a document. -/
def toDocument : Choice → Document
  | .echo => .table [("name", .text "echo")]
  | .program path arguments =>
    .table
      [("name", .text "cgi"), ("program", .text path), ("args", .list (arguments.map .text))]

end Choice

end Leasework.Handler
