import Leasework.Bench.Plan
import Leasework.Queue.Failure
import Leasework.Span

/-!
# `Leasework.Bench.Tasks`: the sends and receivers of a throughput run

All sends begin at once. A send that fails, or is canceled, lowers the number of messages
to receive. Every receiver takes batches and deletes their messages all at once; a
message counts as received whether or not its deletion succeeds. After a failure a
receiver rests for a second.

The run is *done* once as many messages have been received as are to be received. That
is looked at after every failed send, if there are receivers at all, and after every
batch. Being done cancels what is left, as does being told to stop.

The tasks do not say how queue calls are made: `κ` stands for a call that is going on.
-/

set_option autoImplicit false

namespace Leasework.Bench

/-- How far the messages have come. -/
structure Counters where
  /-- Messages that are to be received in all. -/
  toReceive : Nat
  /-- Messages received so far. -/
  received : Nat
  /-- Sends that failed. -/
  failedSending : Nat
deriving DecidableEq, Repr

namespace Counters

/-- Whether as many messages have been received as are to be received. -/
def isDone (c : Counters) : Bool := c.toReceive ≤ c.received

/-- A send failed. -/
def sendFailed (c : Counters) : Counters :=
  { c with toReceive := c.toReceive - 1, failedSending := c.failedSending + 1 }

/-- A message was received. -/
def messageReceived (c : Counters) : Counters := { c with received := c.received + 1 }

end Counters

/-- What a receiver does. -/
inductive Receiver (κ : Type) where
  /-- Waits for a batch. -/
  | waiting (call : κ)
  /-- Rests after a failure, till a moment. -/
  | resting (till : Nat)
  /-- Deletes the messages of a batch; those that are deleted leave a gap. -/
  | deleting (calls : List (Option κ))
  /-- Nothing any more. -/
  | over

/-- The sends and receivers of a run. -/
structure Tasks (κ : Type) where
  /-- Messages that are sent in all. -/
  toSend : Nat
  /-- How far the messages have come. -/
  counters : Counters
  /-- The sends; those that have ended leave a gap. -/
  sends : List (Option κ)
  /-- The receivers. -/
  receivers : List (Receiver κ)
  /-- Whether the run is done. -/
  isDone : Bool

/-- How long a receiver rests after a failure. -/
def restTime : Nat := nanosPerSecond

namespace Tasks

/-- The tasks of a run: every sender sends its share of the count, and every receiver has
begun to wait. -/
def create {κ : Type} (count : Nat) (senders receivers : List κ) : Tasks κ :=
  let expected := rounded count senders.length
  let toSend := if senders.isEmpty then 0 else expected
  { toSend := toSend
    counters := ⟨expected, 0, 0⟩
    sends := senders.flatMap fun call => List.replicate (toSend / senders.length) (some call)
    receivers := receivers.map .waiting
    isDone := false }

/-- Looks whether the run is done by now. -/
def look {κ : Type} (t : Tasks κ) : Tasks κ :=
  if t.counters.isDone then { t with isDone := true } else t

/-- A send has come further. -/
def sendWent {κ : Type} (i : Nat) (call : κ) (t : Tasks κ) : Tasks κ :=
  { t with sends := t.sends.set i (some call) }

/-- A send has ended. -/
def sendEnded {κ : Type} (i : Nat) (r : Except Queue.Failure Unit) (t : Tasks κ) :
    Option (Tasks κ) :=
  match t.sends[i]? with
  | some (some _) =>
    let t := { t with sends := t.sends.set i none }
    match r with
    | .ok _ => some t
    | .error _ =>
      let t := { t with counters := t.counters.sendFailed }
      some (if t.receivers.isEmpty then t else t.look)
  | _ => none

/-- What a receiver does becomes something else. -/
def setReceiver {κ : Type} (j : Nat) (r : Receiver κ) (t : Tasks κ) : Tasks κ :=
  { t with receivers := t.receivers.set j r }

/-- A receiver waits for another batch, unless the run is done or has been stopped. -/
def nextBatch {κ : Type} (j : Nat) (isStopped : Bool) (again : κ) (t : Tasks κ) : Tasks κ :=
  t.setReceiver j (if t.isDone || isStopped then .over else .waiting again)

/-- A receiver has got a batch, whose deletions begin, or none. -/
def batchEnded {κ : Type} (j : Nat) (now : Nat) (r : Except Queue.Failure (List κ))
    (t : Tasks κ) : Option (Tasks κ) :=
  match t.receivers[j]? with
  | some (.waiting _) =>
    match r with
    | .ok deletions => some (t.setReceiver j (.deleting (deletions.map some)))
    | .error .canceled => some (t.setReceiver j .over)
    | .error _ => some (t.setReceiver j (.resting (now + restTime)))
  | _ => none

/-- A deletion has come further. -/
def deletionWent {κ : Type} (j k : Nat) (call : κ) (t : Tasks κ) : Tasks κ :=
  match t.receivers[j]? with
  | some (.deleting calls) => t.setReceiver j (.deleting (calls.set k (some call)))
  | _ => t

/-- A deletion has ended, in whatever way: one more message has been received. -/
def deletionEnded {κ : Type} (j k : Nat) (t : Tasks κ) : Option (Tasks κ) :=
  match t.receivers[j]? with
  | some (.deleting calls) =>
    match calls[k]? with
    | some (some _) =>
      let t := { t with counters := t.counters.messageReceived }
      some (t.setReceiver j (.deleting (calls.set k none)))
    | _ => none
  | _ => none

/-- All messages of a batch are deleted: is the run done by now? -/
def batchCleared {κ : Type} (j : Nat) (isStopped : Bool) (again : κ) (t : Tasks κ) :
    Option (Tasks κ) :=
  match t.receivers[j]? with
  | some (.deleting calls) =>
    if calls.all Option.isNone then some (t.look.nextBatch j isStopped again) else none
  | _ => none

/-- A receiver has rested long enough. -/
def rested {κ : Type} (j : Nat) (now : Nat) (isStopped : Bool) (again : κ) (t : Tasks κ) :
    Option (Tasks κ) :=
  match t.receivers[j]? with
  | some (.resting till) => if till ≤ now then some (t.nextBatch j isStopped again) else none
  | _ => none

/-- A receiver that rests notices that the run is done or has been stopped. -/
def restCanceled {κ : Type} (j : Nat) (isStopped : Bool) (t : Tasks κ) : Option (Tasks κ) :=
  match t.receivers[j]? with
  | some (.resting _) => if t.isDone || isStopped then some (t.setReceiver j .over) else none
  | _ => none

/-- Whether a receiver has ended. -/
def receiverIsOver {κ : Type} : Receiver κ → Bool
  | .over => true
  | _ => false

/-- Whether all sends and receivers have ended. -/
def areOver {κ : Type} (t : Tasks κ) : Bool :=
  t.sends.all Option.isNone && t.receivers.all receiverIsOver

/-- The messages that were sent. -/
def sent {κ : Type} (t : Tasks κ) : Nat := t.toSend - t.counters.failedSending

end Tasks

end Leasework.Bench
