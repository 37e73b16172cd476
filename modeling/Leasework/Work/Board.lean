/-!
# `Leasework.Work.Board`: the counters of the work

Everyone who works between the same two queues shares a board. It counts the requests
being worked on, the requests answered and deleted, the requests given back, and the
runs that ended with a failure.
-/

set_option autoImplicit false

namespace Leasework.Work

/-- The counters of the work. -/
structure Board where
  /-- Requests being worked on. -/
  inFlight : Nat
  /-- Requests answered and deleted. -/
  completed : Nat
  /-- Requests given back. -/
  returned : Nat
  /-- Runs that ended with a failure. -/
  failed : Nat
deriving DecidableEq, Repr

namespace Board

/-- A board with nothing on it. -/
def blank : Board := ⟨0, 0, 0, 0⟩

/-- Work on a request begins. -/
def begin (b : Board) : Board := { b with inFlight := b.inFlight + 1 }

/-- Work on a request ends, in whatever way. -/
def finish (b : Board) : Board := { b with inFlight := b.inFlight - 1 }

/-- A request was answered and deleted. -/
def complete (b : Board) : Board := { b with completed := b.completed + 1 }

/-- A request was given back. -/
def giveBack (b : Board) : Board := { b with returned := b.returned + 1 }

/-- A run ended with a failure. -/
def fail (b : Board) : Board := { b with failed := b.failed + 1 }

end Board

end Leasework.Work
