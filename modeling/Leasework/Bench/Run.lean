import Leasework.Bench.Tasks
import Leasework.Plant

/-!
# `Leasework.Bench.Run`: a throughput run on the plant

Senders and receivers make their calls on the stores of the plant. A run that is done
cancels its own calls; being told to stop cancels them as well.
-/

set_option autoImplicit false

namespace Leasework.Bench

/-- A throughput run. -/
structure Run where
  /-- When it started. -/
  startedAt : Nat
  /-- The most messages a receiver takes at once. -/
  batch : Nat
  /-- The ways to the queues of the receivers. -/
  receiving : List Queue.Handle
  /-- Its sends and receivers. -/
  tasks : Tasks Queue.Call

/-- What a throughput run came to. -/
structure Report where
  /-- Messages sent. -/
  sent : Nat
  /-- Sends that failed. -/
  failedSending : Nat
  /-- Messages that were to be received in the end. -/
  expected : Nat
  /-- Messages received. -/
  received : Nat
  /-- How long the run took, in nanoseconds. -/
  elapsed : Nat
  /-- Whether the throughput is that of the receivers. -/
  countsReceived : Bool
deriving DecidableEq, Repr

namespace Report

/-- A length of time in seconds. -/
def seconds (nanos : Nat) : Float :=
  Float.ofNat (nanos / nanosPerSecond)
    + Float.ofNat (nanos % nanosPerSecond) / Float.ofNat nanosPerSecond

/-- Messages per second: those received if there were receivers, and those sent if not. -/
def throughput (r : Report) : Float :=
  let span := seconds r.elapsed
  if 0.0 < span then Float.ofNat (if r.countsReceived then r.received else r.sent) / span else 0.0

end Report

/-- A step of a throughput run. -/
inductive Move where
  /-- A step of a send. -/
  | send (i : Nat) (move : Queue.CallMove)
  /-- A step of the wait of a receiver. -/
  | receive (j : Nat) (move : Queue.CallMove)
  /-- A step of a deletion of a receiver. -/
  | delete (j k : Nat) (move : Queue.CallMove)
  /-- A receiver has deleted its batch. -/
  | clear (j : Nat)
  /-- A receiver has rested. -/
  | rested (j : Nat)
  /-- A receiver that rests notices the end of the run. -/
  | quitRest (j : Nat)

namespace Run

/-- The call that waits for a batch. -/
def takeCall (batch : Nat) (handle : Queue.Handle) : Queue.Call :=
  .start handle (.take (max 1 batch))

/-- A run that starts now. -/
def create (p : Plant) (plan : Plan) (sending receiving : List Queue.Handle) : Run where
  startedAt := p.now
  batch := plan.batch
  receiving := receiving
  tasks :=
    .create plan.count (sending.map fun handle => .start handle (.send plan.message))
      (receiving.map (takeCall plan.batch))

/-- The wait of a receiver for one more batch. -/
def again (r : Run) (j : Nat) : Option Queue.Call := r.receiving[j]?.map (takeCall r.batch)

/-- Whether the calls of the run are canceled. -/
def isCanceled (isStopped : Bool) (r : Run) : Bool := r.tasks.isDone || isStopped

/-- The deletions of a batch. -/
def deletions (handle : Queue.Handle) : Queue.Reply → List Queue.Call
  | .batch deliveries => deliveries.map fun d => .start handle (.delete d)
  | .done => []

/-- Makes a step, if it is possible. Deletions are never canceled. -/
def step (isStopped : Bool) (p : Plant) (r : Run) : Move → Option (Plant × Run)
  | .send i move =>
    match r.tasks.sends[i]? with
    | some (some call) => do
      let (p, progress) ← p.stepCall (r.isCanceled isStopped) call move
      match progress with
      | .going call => some (p, { r with tasks := r.tasks.sendWent i call })
      | .ended result => do
        let tasks ← r.tasks.sendEnded i (result.map fun _ => ())
        some (p, { r with tasks := tasks })
    | _ => none
  | .receive j move =>
    match r.tasks.receivers[j]? with
    | some (.waiting call) => do
      let (p, progress) ← p.stepCall (r.isCanceled isStopped) call move
      match progress with
      | .going call => some (p, { r with tasks := r.tasks.setReceiver j (.waiting call) })
      | .ended result => do
        let tasks ← r.tasks.batchEnded j p.now (result.map (deletions call.handle))
        some (p, { r with tasks := tasks })
    | _ => none
  | .delete j k move =>
    match r.tasks.receivers[j]? with
    | some (.deleting calls) =>
      match calls[k]? with
      | some (some call) => do
        let (p, progress) ← p.stepCall false call move
        match progress with
        | .going call => some (p, { r with tasks := r.tasks.deletionWent j k call })
        | .ended _ => do
          let tasks ← r.tasks.deletionEnded j k
          some (p, { r with tasks := tasks })
      | _ => none
    | _ => none
  | .clear j => do
    let call ← r.again j
    let tasks ← r.tasks.batchCleared j isStopped call
    some (p, { r with tasks := tasks })
  | .rested j => do
    let call ← r.again j
    let tasks ← r.tasks.rested j p.now isStopped call
    some (p, { r with tasks := tasks })
  | .quitRest j => do
    let tasks ← r.tasks.restCanceled j isStopped
    some (p, { r with tasks := tasks })

/-- The report of a run that is over. -/
def report? (p : Plant) (r : Run) : Option Report :=
  if r.tasks.areOver then
    some
      { sent := r.tasks.sent
        failedSending := r.tasks.counters.failedSending
        expected := r.tasks.counters.toReceive
        received := r.tasks.counters.received
        elapsed := p.now - r.startedAt
        countsReceived := !r.receiving.isEmpty }
  else none

/-- A step of a send that is possible now. -/
def nextOfSends? (isStopped : Bool) (p : Plant) (r : Run) : Option Move :=
  r.tasks.sends.zipIdx.findSome? fun (slot, i) =>
    slot.bind fun call => (p.nextCallMove? (r.isCanceled isStopped) call).map (.send i)

/-- A step of a receiver that is possible now. -/
def nextOfReceiver? (isStopped : Bool) (p : Plant) (r : Run) (j : Nat) :
    Receiver Queue.Call → Option Move
  | .waiting call => (p.nextCallMove? (r.isCanceled isStopped) call).map (.receive j)
  | .resting till =>
    if r.isCanceled isStopped then some (.quitRest j)
    else if till ≤ p.now then some (.rested j)
    else none
  | .deleting calls =>
    if calls.all Option.isNone then some (.clear j)
    else
      calls.zipIdx.findSome? fun (slot, k) =>
        slot.bind fun call => (p.nextCallMove? false call).map (.delete j k)
  | .over => none

/-- A step that is possible now: the sends come first. -/
def next? (isStopped : Bool) (p : Plant) (r : Run) : Option Move :=
  (r.nextOfSends? isStopped p).or
    (r.tasks.receivers.zipIdx.findSome? fun (receiver, j) =>
      r.nextOfReceiver? isStopped p j receiver)

/-- The moments at which a receiver wakes up by itself. -/
def receiverTimers : Receiver Queue.Call → List Nat
  | .waiting call => call.timer?.toList
  | .resting till => [till]
  | .deleting calls => (calls.filterMap id).filterMap Queue.Call.timer?
  | .over => []

/-- The moments at which the run wakes up by itself. -/
def timers (r : Run) : List Nat :=
  (r.tasks.sends.filterMap id).filterMap Queue.Call.timer?
    ++ r.tasks.receivers.flatMap receiverTimers

end Run

end Leasework.Bench
