import Leasework.Queue.Failure
import Leasework.Work.Board
import Leasework.Work.Failure

/-!
# `Leasework.Work.Job`: the work on one request

The handler answers while a keeper renews the lease of the request. Once the handler
has answered the keeper is told to stop, and only when it has ended the work goes on:
with a response, the response is sent and then the request deleted; without one, or when
the response cannot be sent, the request is given back. So a request is deleted only
after its response has been accepted, and it is either deleted or given back, never both.

A handler that reports a cancellation nobody asked for has failed. The cancellation is
looked at when the keeper has ended.

A job does not say how its queue calls are made: `κ` stands for a call that is going
on, `start` begins one, and its end is reported by `finish`.
-/

set_option autoImplicit false

namespace Leasework.Work

/-- What a handler answers: a response, or a refusal. -/
abbrev Answer : Type := Except Refusal String

/-- How work ends when nothing fails. -/
inductive Ending where
  /-- The response was sent and the request deleted. -/
  | completed
  /-- A cancellation was seen; a request that had been received was given back. -/
  | canceled
deriving DecidableEq, Repr

/-- How work ends. -/
abbrev Result : Type := Except Failure Ending

/-- A queue call that a job makes once the handler has answered. -/
inductive Command where
  /-- Sends the response. -/
  | send (text : String)
  /-- Deletes the request. -/
  | delete
  /-- Gives the request back. -/
  | giveBack
deriving DecidableEq, Repr

/-- How far the work on a request has come. -/
inductive Job (κ : Type) where
  /-- The handler is at work. -/
  | handling
  /-- The handler has answered and the keeper has been told to stop. -/
  | settling (answer : Answer)
  /-- The response is being sent. -/
  | sending (text : String) (call : κ)
  /-- The request is being deleted. -/
  | deleting (call : κ)
  /-- The request is being given back; this is how the work will end. -/
  | returning (result : Result) (call : κ)
  /-- The work is over. -/
  | over (result : Result)

namespace Job

/-- The refusal of a handler that reports a cancellation nobody asked for. -/
def unaskedCancellation : Refusal :=
  .failed "handler reported cancellation although none was requested"

/-- How the work on a request ends whose handler refused it. -/
def refused (id : String) (canceled : Bool) : Refusal → Result
  | .canceled => if canceled then .ok .canceled else .error (.handler id unaskedCancellation)
  | .failed text => .error (.handler id (.failed text))

/-- The handler has answered. -/
def answer {κ : Type} (a : Answer) : Job κ → Option (Job κ)
  | .handling => some (.settling a)
  | _ => none

/-- The keeper has ended; `canceled` says whether a cancellation has been asked for. -/
def settle {κ : Type} (start : Command → κ) (id : String) (canceled : Bool) :
    Job κ → Option (Job κ)
  | .settling (.ok text) => some (.sending text (start (.send text)))
  | .settling (.error r) => some (.returning (refused id canceled r) (start .giveBack))
  | _ => none

/-- The call that is going on. -/
def call? {κ : Type} : Job κ → Option κ
  | .sending _ call => some call
  | .deleting call => some call
  | .returning _ call => some call
  | _ => none

/-- The call that is going on has come further. -/
def proceed {κ : Type} (call : κ) : Job κ → Job κ
  | .sending text _ => .sending text call
  | .deleting _ => .deleting call
  | .returning result _ => .returning result call
  | job => job

/-- The call that was going on has ended. -/
def finish {κ : Type} (start : Command → κ) (r : Except Queue.Failure Unit) :
    Job κ → Option (Job κ)
  | .sending _ _ =>
    match r with
    | .ok _ => some (.deleting (start .delete))
    | .error f => some (.returning (.error (.queue .send f)) (start .giveBack))
  | .deleting _ =>
    match r with
    | .ok _ => some (.over (.ok .completed))
    | .error f => some (.over (.error (.queue .delete f)))
  | .returning result _ => some (.over result)
  | _ => none

/-- What the end of the call that is going on puts on the board. -/
def credit {κ : Type} (r : Except Queue.Failure Unit) (job : Job κ) (b : Board) : Board :=
  match job, r with
  | .deleting _, .ok _ => b.complete
  | .returning _ _, .ok _ => b.giveBack
  | _, _ => b

end Job

end Leasework.Work
