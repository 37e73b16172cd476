import Leasework.Document
import Leasework.Host.Variables
import Leasework.Text.Numeral
import Leasework.Work.Board

/-!
# `Leasework.Host.StatusPage`: the page that reports on the host

The page answers one path with the counters of the work, and listens on a port that a
variable names.
-/

set_option autoImplicit false

namespace Leasework.Host

/-- The port of the page when no variable names one. -/
def defaultPort : UInt16 := 8001

/-- The port of the page. -/
def port (vars : Variables) : Except Text.NumeralFault UInt16 :=
  match vars.text? "PORT" with
  | some text => Text.word16 text
  | none => .ok defaultPort

/-- An answer of the page. -/
structure StatusReply where
  /-- The status code. -/
  code : Nat
  /-- What is answered beside the code, if anything. -/
  body : Option Document
deriving Repr

/-- The counters of the work as a document. -/
def boardDocument (b : Work.Board) : Document :=
  .table
    [("in_flight", .integer b.inFlight), ("completed", .integer b.completed),
      ("returned", .integer b.returned), ("failed", .integer b.failed)]

/-- What the page shows. -/
def statusDocument (concurrency : Nat) (b : Work.Board) : Document :=
  .table
    [("status", .text "healthy"), ("service", .text "worker-host"),
      ("concurrency", .integer concurrency), ("stats", boardDocument b)]

/-- The path of a request without its query. -/
def pathOf (target : String) : String := String.ofList (target.toList.takeWhile (· ≠ '?'))

/-- The answer to a request: the page can be read, with or without its body, and nothing
else can be done with it or found beside it. -/
def statusReply (method target : String) (concurrency : Nat) (b : Work.Board) : StatusReply :=
  if pathOf target ≠ "/health" then ⟨404, none⟩
  else if method = "GET" then ⟨200, some (statusDocument concurrency b)⟩
  else if method = "HEAD" then ⟨200, none⟩
  else ⟨405, none⟩

end Leasework.Host
