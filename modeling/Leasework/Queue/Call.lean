import Leasework.Queue.Patience
import Leasework.Queue.Single
import Leasework.Queue.Store

/-!
# `Leasework.Queue.Call`: a call on a store, step by step

A call makes attempts until one settles it. It is *ready* before an attempt, *resting*
after a throttled one, and *blocked* while a receiver waits for a message. Nothing
else can happen to it between two steps than that time passes, that others use the
store, and that it is canceled.

* `Move.go` goes on: it attempts the request, if the call is ready, rested, or told to
  look again by a signal or by an expired lease.
* `Move.quit` notices the cancellation while the call rests or is blocked.

When both are possible either may happen. An attempt begins with a look at the
cancellation, except for a blocked receiver that looks again.
-/

set_option autoImplicit false

namespace Leasework.Queue

/-- What is asked of a store. -/
inductive Request where
  /-- Add a message. -/
  | send (content : String)
  /-- Deliver up to that many messages, at least one. -/
  | take (most : Nat)
  /-- Renew a lease. -/
  | renew (delivery : Delivery)
  /-- Give a message back. -/
  | giveBack (delivery : Delivery)
  /-- Delete a message. -/
  | delete (delivery : Delivery)
deriving DecidableEq, Repr

/-- What a store answers in the end. -/
inductive Reply where
  /-- The request was carried out. -/
  | done
  /-- The messages that were delivered. -/
  | batch (deliveries : List Delivery)
deriving DecidableEq, Repr

/-- How one attempt ends. -/
inductive Outcome where
  /-- The attempt has an answer. -/
  | answered (result : Except Failure Reply)
  /-- There is nothing to deliver before the given expiry of a lease or a signal. -/
  | nothing (expiry : Option Nat)

/-- An answer without content. -/
def Outcome.ofUnit : Except Failure Unit → Outcome
  | .ok _ => .answered (.ok .done)
  | .error f => .answered (.error f)

/-- Attempts a request once. -/
def Store.attempt (now : Nat) (s : Store) : Request → Store × Outcome
  | .send content => (s.send content).map id .ofUnit
  | .take most =>
    match s.take (atLeastOne most) now with
    | (s, .ok (some deliveries)) => (s, .answered (.ok (.batch deliveries)))
    | (s, .ok none) => (s, .nothing s.earliestExpiry?)
    | (s, .error f) => (s, .answered (.error f))
  | .renew d => (s.renew now d).map id .ofUnit
  | .giveBack d => (s.giveBack now d).map id .ofUnit
  | .delete d => (s.delete now d).map id .ofUnit

/-- A way to one store: which one, and what to do about throttling. -/
structure Handle where
  /-- The position of the store. -/
  store : Nat
  /-- What happens after a throttled attempt. -/
  patience : Patience
deriving DecidableEq, Repr

/-- Where a call is between two steps. -/
inductive CallPhase where
  /-- An attempt is next. -/
  | ready
  /-- The backoff lasts till a moment. -/
  | resting (till : Nat)
  /-- Nothing was visible: the signals seen by then, and the next expiry of a lease. -/
  | blocked (seen : Nat) (expiry : Option Nat)
deriving DecidableEq, Repr

/-- A call that is going on. -/
structure Call where
  /-- The way to the store. -/
  handle : Handle
  /-- What is asked. -/
  request : Request
  /-- Where the call is. -/
  phase : CallPhase
deriving DecidableEq, Repr

/-- A step of a call. -/
inductive CallMove where
  /-- Goes on with the request. -/
  | go
  /-- Notices the cancellation. -/
  | quit
deriving DecidableEq, Repr

/-- What a step comes to. -/
inductive Progress where
  /-- The call goes on. -/
  | going (call : Call)
  /-- The call is over. -/
  | ended (result : Except Failure Reply)

namespace Call

/-- A call that has not done anything yet. -/
def start (handle : Handle) (request : Request) : Call := ⟨handle, request, .ready⟩

/-- Makes an attempt. -/
def attempt (now : Nat) (s : Store) (c : Call) : Store × Progress :=
  match s.attempt now c.request with
  | (s, .nothing expiry) => (s, .going { c with phase := .blocked s.signals expiry })
  | (s, .answered result) =>
    if c.handle.patience.triesAgain result then
      (s, .going { c with phase := .resting (now + c.handle.patience.backoff) })
    else (s, .ended result)

/-- Makes an attempt unless the call is canceled. -/
def attemptUnless (canceled : Bool) (now : Nat) (s : Store) (c : Call) : Store × Progress :=
  if canceled then (s, .ended (.error .canceled)) else c.attempt now s

/-- Whether a moment has come. -/
def reached (now : Nat) : Option Nat → Bool
  | some moment => moment ≤ now
  | none => false

/-- Whether the call can go on. -/
def canGo (now : Nat) (s : Store) (c : Call) : Bool :=
  match c.phase with
  | .ready => true
  | .resting till => till ≤ now
  | .blocked seen expiry => seen ≠ s.signals || reached now expiry

/-- Whether the call can notice a cancellation. -/
def canQuit (canceled : Bool) (c : Call) : Bool :=
  match c.phase with
  | .ready => false
  | _ => canceled

/-- Makes a step, if it is possible. -/
def step (canceled : Bool) (now : Nat) (s : Store) (c : Call) : CallMove → Option (Store × Progress)
  | .quit => if c.canQuit canceled then some (s, .ended (.error .canceled)) else none
  | .go =>
    if c.canGo now s then
      match c.phase with
      | .blocked _ _ => some (c.attempt now s)
      | _ => some (c.attemptUnless canceled now s)
    else none

/-- A step that is possible now. Of many blocked receivers one looks again before it notices the
cancellation, so that is what is played out here. -/
def next? (canceled : Bool) (now : Nat) (s : Store) (c : Call) : Option CallMove :=
  if c.canGo now s then some .go
  else if c.canQuit canceled then some .quit
  else none

/-- The moment at which the call wakes up by itself. -/
def timer? (c : Call) : Option Nat :=
  match c.phase with
  | .ready => none
  | .resting till => some till
  | .blocked _ expiry => expiry

end Call

end Leasework.Queue
