import Leasework.Span
import Leasework.Queue.Failure

/-!
# `Leasework.Queue.Patience`: what happens after a throttled attempt

A queue call that the backend throttles may wait a fixed time and try again, for as
long as the backend keeps throttling. Whether it does is the patience of the handle
it goes through. No other failure is ever tried again.
-/

set_option autoImplicit false

namespace Leasework.Queue

/-- Whether and when a throttled attempt is made again. -/
structure Patience where
  /-- Whether a throttled attempt is made again at all. -/
  retries : Bool
  /-- The nanoseconds to wait before it is. -/
  backoff : Nat
deriving DecidableEq, Repr

namespace Patience

/-- The milliseconds a throttled call waits unless told otherwise. -/
def defaultBackoffMillis : UInt64 := 2000

/-- Waits two seconds and tries again. -/
def default : Patience := ⟨true, (Span.ofMillis defaultBackoffMillis).toNanos⟩

/-- Hands the first throttling on to the caller. -/
def none : Patience := ⟨false, 0⟩

/-- Whether an attempt that ended this way is made again. -/
def triesAgain {α : Type} (p : Patience) : Except Failure α → Bool
  | .ok _ => false
  | .error f => p.retries && f.isThrottling

end Patience

end Leasework.Queue
