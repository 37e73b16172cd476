import Leasework.Queue.Failure

/-!
# `Leasework.Queue.Single`: waiting for one message

Waiting for one message is waiting for a batch of at most one. Queues that keep their
promise never answer with an empty batch; one that does has failed.
-/

set_option autoImplicit false

namespace Leasework.Queue

/-- How many messages a receiver asks for: at least one. -/
def atLeastOne (most : Nat) : Nat := max 1 most

/-- The message of a batch of at most one, received from the queue of a name. -/
def single {α : Type} (queue : String) : Except Failure (List α) → Except Failure α
  | .ok (a :: _) => .ok a
  | .ok [] => .error (.backend ("empty batch from queue " ++ queue))
  | .error f => .error f

end Leasework.Queue
