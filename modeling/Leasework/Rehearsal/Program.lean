import Leasework.Bench.Plan
import Leasework.Crew.Options
import Leasework.Host.StatusPage
import Leasework.Rehearsal.Script
import Leasework.World

/-!
# `Leasework.Rehearsal.Program`: what is done in a rehearsal, and what comes of it

A rehearsal does one step after the other; beside a step others may run that begin some
time after it. A step answers once it is over, and the view of the stores shows where
things stand.
-/

set_option autoImplicit false

namespace Leasework.Rehearsal

/-- One thing that is done. Queues are named by their position. -/
inductive Action where
  /-- Sends a message. -/
  | send (queue : Nat) (content : String)
  /-- Waits for one message. -/
  | wait (queue : Nat)
  /-- Waits for a batch. -/
  | waitBatch (queue : Nat) (most : Nat)
  /-- Renews the lease of a message. -/
  | renew (message : Nat)
  /-- Gives a message back. -/
  | giveBack (message : Nat)
  /-- Deletes a message. -/
  | delete (message : Nat)
  /-- Lets time pass, in milliseconds. -/
  | sleep (millis : Nat)
  /-- Injects faults into a queue. -/
  | inject (queue : Nat) (kind : Queue.FaultKind) (count : Nat)
  /-- Changes how later steps use a queue. -/
  | setPatience (queue : Nat) (patience : Queue.Patience)
  /-- Says how long messages of a queue are leased. -/
  | lease (queue : Nat)
  /-- Starts a keeper for a message, under a key. -/
  | startKeeper (message : Nat) (periodMillis : Nat) (key : String)
  /-- Stops the keeper of a key. -/
  | stopKeeper (key : String)
  /-- Leaves the keeper of a key. -/
  | dropKeeper (key : String)
  /-- Looks at everything. -/
  | look
  /-- Works on the next request. -/
  | processNext
  /-- Works on a message. -/
  | processMessage (message : Nat)
  /-- Works on requests until it is canceled. -/
  | consume
  /-- Runs a crew. -/
  | crew (options : Crew.Options)
  /-- Measures throughput between two queues. -/
  | bench (plan : Bench.Plan) (sending receiving : Nat)
  /-- Asks for the status page. -/
  | status (method target : String) (concurrency : Nat)

/-- A step: what is done, when it is canceled, and what runs beside it. -/
inductive Step where
  /-- A step that begins some milliseconds after the one it runs beside. -/
  | mk (afterMillis : Nat) (action : Action) (cancelMillis : Option Nat) (beside : List Step)

/-- A queue as a view shows it. -/
structure QueueView where
  /-- Its name. -/
  name : String
  /-- The contents of its visible messages, in delivery order. -/
  visible : List String
  /-- How many messages are held. -/
  inFlight : Nat
  /-- What has been done so far. -/
  tally : Queue.Tally

/-- Everything that can be seen at a moment. -/
structure View where
  /-- The millisecond. -/
  millis : Nat
  /-- The queues. -/
  queues : List QueueView
  /-- The board. -/
  board : Work.Board

/-- What comes of a step. -/
inductive Answer where
  /-- It was done. -/
  | done
  /-- A queue call failed. -/
  | failed (f : Queue.Failure)
  /-- Messages came, each under a number of its own. -/
  | messages (batch : List (Nat × Queue.Delivery))
  /-- A keeper renewed its lease so often, and failed so often. -/
  | renewals (renewed failed : Nat)
  /-- A length of time. -/
  | span (s : Span)
  /-- Whether there was something to do. -/
  | flag (b : Bool)
  /-- Everything that can be seen. -/
  | view (v : View)
  /-- Work ended. -/
  | worked (ending : Work.Ending)
  /-- Work failed. -/
  | workFailed (f : Work.Failure)
  /-- Throughput was measured. -/
  | measured (r : Bench.Report)
  /-- The status page answered. -/
  | status (r : Host.StatusReply)
  /-- A handler crashed. -/
  | crashed (text : String)
  /-- The step took too long and was dropped. -/
  | timedOut

/-- What is known of a step afterwards. -/
inductive Entry where
  /-- What came of a step, how long it took, and what came of the steps beside it. -/
  | mk (answer : Answer) (elapsedMillis : Nat) (beside : List Entry)

/-- What is known of one of the main steps. -/
structure MainEntry where
  /-- The step. -/
  entry : Entry
  /-- What was written down about the handler since the step before. -/
  notes : List (Nat × Note × String)
  /-- The most handlers that have been at work at once so far. -/
  mostAtWork : Nat
  /-- What can be seen now. -/
  view : View

/-- How many steps a step stands for, those beside it included. -/
def Step.size : Step → Nat
  | .mk _ _ _ beside => 1 + sizeAll beside
where
  /-- How many steps a list of steps stands for. -/
  sizeAll : List Step → Nat
    | [] => 0
    | s :: rest => s.size + sizeAll rest

end Leasework.Rehearsal
