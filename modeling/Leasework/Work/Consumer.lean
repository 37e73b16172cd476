import Leasework.Lease.Period
import Leasework.Plant
import Leasework.Work.Job

/-!
# `Leasework.Work.Consumer`: who waits for requests and works on them

A consumer receives a request, works on it as a `Job` says while a keeper renews its
lease, and ends, or waits for the next request if it repeats. A consumer that repeats
ends with the first failure or cancellation.

The handler is not part of the consumer: it answers, or crashes, whenever it likes
while the job is in its first stage.
-/

set_option autoImplicit false

namespace Leasework.Work

/-- What consumers work between. -/
structure Post where
  /-- The way to the requests. -/
  requests : Queue.Handle
  /-- The way to the responses. -/
  responses : Queue.Handle
  /-- The board they share. -/
  board : Nat
  /-- The time between two renewals of a lease. -/
  period : Nat
deriving DecidableEq, Repr

/-- The post between two queues; the lease of the requests says how often it is renewed. -/
def Post.between (requests responses : Queue.Handle) (board : Nat) (lease : Span) :
    Except SpanFault Post :=
  (Lease.renewalPeriod lease).map fun period => ⟨requests, responses, board, period.toNanos⟩

/-- How a consumer ends. -/
inductive Exit where
  /-- Its work is done, or has failed. -/
  | finished (result : Result)
  /-- The handler crashed. -/
  | crashed (text : String)

/-- What a consumer does. -/
inductive Activity where
  /-- Waits for a request. -/
  | receiving (call : Queue.Call)
  /-- Works on a request, received through a handle, whose lease a keeper renews. -/
  | working (handle : Queue.Handle) (delivery : Queue.Delivery) (keeper : Nat)
      (job : Job Queue.Call)
  /-- Nothing any more. -/
  | ended (exit : Exit)

/-- A consumer. -/
structure Consumer where
  /-- What it works between. -/
  post : Post
  /-- Whether it waits for another request after a completed one. -/
  repeats : Bool
  /-- What it does. -/
  activity : Activity

/-- A step of a consumer. -/
inductive ConsumerMove where
  /-- A step of the queue call that is going on. -/
  | call (move : Queue.CallMove)
  /-- The handler answers. -/
  | answer (a : Answer)
  /-- The handler crashes. -/
  | crash (text : String)
  /-- The keeper has ended, and the work goes on. -/
  | settle

namespace Consumer

/-- The call that waits for the next request. -/
def receive (post : Post) : Queue.Call := .start post.requests (.take 1)

/-- A consumer that waits for its first request. -/
def waiting (post : Post) (repeats : Bool) : Consumer := ⟨post, repeats, .receiving (receive post)⟩

/-- Begins the work on a request. -/
def begin (p : Plant) (c : Consumer) (handle : Queue.Handle) (delivery : Queue.Delivery) :
    Plant × Consumer :=
  let (p, keeper) := (p.onBoard c.post.board .begin).startKeeper handle delivery c.post.period
  (p, { c with activity := .working handle delivery keeper .handling })

/-- A consumer that works on a request it has been given. -/
def given (p : Plant) (post : Post) (handle : Queue.Handle) (delivery : Queue.Delivery) :
    Plant × Consumer :=
  begin p (waiting post false) handle delivery

/-- Ends. -/
def leave (c : Consumer) (exit : Exit) : Consumer := { c with activity := .ended exit }

/-- One round is over: the next one begins, or the consumer ends. -/
def conclude (p : Plant) (c : Consumer) (result : Result) : Plant × Consumer :=
  if c.repeats then
    match result with
    | .ok .completed => (p, { c with activity := .receiving (receive c.post) })
    | .ok .canceled => (p, c.leave (.finished result))
    | .error _ => (p.onBoard c.post.board .fail, c.leave (.finished result))
  else (p, c.leave (.finished result))

/-- The wait for a request is over. -/
def received (p : Plant) (c : Consumer) (r : Except Queue.Failure Queue.Reply) :
    Plant × Consumer :=
  let batch := r.map fun
    | .batch deliveries => deliveries
    | .done => []
  match Queue.single (p.storeName c.post.requests.store) batch with
  | .ok delivery => begin p c c.post.requests delivery
  | .error .canceled => conclude p c (.ok .canceled)
  | .error f => conclude p c (.error (.queue .receive f))

/-- The queue call of a command of the job. -/
def callOf (post : Post) (handle : Queue.Handle) (delivery : Queue.Delivery) :
    Command → Queue.Call
  | .send text => .start post.responses (.send text)
  | .delete => .start handle (.delete delivery)
  | .giveBack => .start handle (.giveBack delivery)

/-- The job has come further; when it is over, so is the round. -/
def advance (p : Plant) (c : Consumer) (handle : Queue.Handle) (delivery : Queue.Delivery)
    (keeper : Nat) : Job Queue.Call → Plant × Consumer
  | .over result => conclude (p.onBoard c.post.board .finish) c result
  | job => (p, { c with activity := .working handle delivery keeper job })

/-- Makes a step, if it is possible. Only the wait for a request can be canceled. -/
def step (canceled : Bool) (p : Plant) (c : Consumer) : ConsumerMove → Option (Plant × Consumer)
  | .call move =>
    match c.activity with
    | .receiving call => do
      let (p, progress) ← p.stepCall canceled call move
      match progress with
      | .going call => some (p, { c with activity := .receiving call })
      | .ended r => some (received p c r)
    | .working handle delivery keeper job => do
      let call ← job.call?
      let (p, progress) ← p.stepCall false call move
      match progress with
      | .going call =>
        some (p, { c with activity := .working handle delivery keeper (job.proceed call) })
      | .ended r =>
        let r := r.map fun _ => ()
        let job' ← job.finish (callOf c.post handle delivery) r
        some (advance (p.onBoard c.post.board (job.credit r)) c handle delivery keeper job')
    | .ended _ => none
  | .answer a =>
    match c.activity with
    | .working handle delivery keeper job => do
      let job ← job.answer a
      some (p.stopKeeper keeper, { c with activity := .working handle delivery keeper job })
    | _ => none
  | .crash text =>
    match c.activity with
    | .working _ _ keeper .handling =>
      some ((p.onBoard c.post.board .finish).leaveKeeper keeper, c.leave (.crashed text))
    | _ => none
  | .settle =>
    match c.activity with
    | .working handle delivery keeper job => do
      let (p, _) ← p.collectKeeper? keeper
      let job ← job.settle (callOf c.post handle delivery) delivery.id canceled
      some (advance p c handle delivery keeper job)
    | _ => none

/-- What is left behind when a consumer is dropped: its call is forgotten, its request is
no longer being worked on, and its keeper is left. -/
def abandon (p : Plant) (c : Consumer) : Plant :=
  match c.activity with
  | .working _ _ keeper _ => (p.onBoard c.post.board .finish).leaveKeeper keeper
  | _ => p

/-- A step that is possible now and needs no handler. -/
def next? (canceled : Bool) (p : Plant) (c : Consumer) : Option ConsumerMove :=
  match c.activity with
  | .receiving call => (p.nextCallMove? canceled call).map .call
  | .working _ _ keeper job =>
    match job with
    | .settling _ => if (p.collectKeeper? keeper).isSome then some .settle else none
    | _ => job.call?.bind fun call => (p.nextCallMove? false call).map .call
  | .ended _ => none

/-- The moment at which the consumer wakes up by itself. -/
def timer? (c : Consumer) : Option Nat :=
  match c.activity with
  | .receiving call => call.timer?
  | .working _ _ _ job => job.call?.bind Queue.Call.timer?
  | .ended _ => none

/-- The handler that is at work: the number of the keeper beside it, and the request. -/
def handling? (c : Consumer) : Option (Nat × String) :=
  match c.activity with
  | .working _ delivery keeper .handling => some (keeper, delivery.content)
  | _ => none

/-- How the consumer ended. -/
def exit? (c : Consumer) : Option Exit :=
  match c.activity with
  | .ended exit => some exit
  | _ => none

end Consumer

end Leasework.Work
