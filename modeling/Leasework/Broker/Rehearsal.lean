import Leasework.Broker.Client
import Leasework.Broker.Receiver

/-!
# `Leasework.Broker.Rehearsal`: steps on a broker queue, one after the other

Every step is a call of a client that has been opened. The replies of the broker are
given in advance.
-/

set_option autoImplicit false

namespace Leasework.Broker

/-- One call of a client. Messages are named by their numbers, in the order in which they
were received. -/
inductive Action where
  /-- Sends a message. -/
  | send (content : String)
  /-- Waits for one message. -/
  | wait
  /-- Waits for a batch. -/
  | waitBatch (most : Nat)
  /-- Runs a script on a message. -/
  | settle (script : LeaseScript) (message : Nat)

/-- What comes of a step. -/
inductive StepAnswer where
  /-- It was done. -/
  | done
  /-- Messages came, each under its number. -/
  | messages (batch : List (Nat × Entry))
  /-- It failed. -/
  | failed (f : Queue.Failure)
  /-- It took too long. -/
  | timedOut

/-- What is known of a step afterwards. -/
structure StepEntry where
  /-- What came of it. -/
  answer : StepAnswer
  /-- The commands it told, in order. -/
  commands : List Command

/-- A rehearsal in progress. -/
structure Stage where
  /-- The clock, in nanoseconds. -/
  now : Nat
  /-- What the client sees of the broker. -/
  session : Session
  /-- The connections for reads. -/
  pool : Pool
  /-- The messages received so far. -/
  inbox : List Entry

namespace Stage

/-- How many changes a step may take before it takes too long. -/
def fuel : Nat := 100000

/-- Makes something happen to a receiver. -/
def happen (stage : Stage) (canceled : Bool) (r : Receiver) (h : Happening) : Stage × Receiver :=
  match r.step canceled stage.now stage.pool h with
  | some (pool, r) => ({ stage with pool := pool }, r)
  | none => (stage, r)

/-- Lets a receiver go on by one step. -/
def receiveOnce (stage : Stage) (canceled : Bool) (r : Receiver) : Stage × Receiver :=
  match r.phase with
  | .ready => stage.happen canceled r .begin
  | .connecting => stage.happen canceled r (.connected (.ok ()))
  | .resting till => { stage with now := max stage.now till }.happen canceled r .rested
  | .ended _ => (stage, r)
  | _ =>
    match r.command? with
    | none => (stage, r)
    | some c =>
      let (session, reply) := stage.session.tell stage.now c
      let stage := { stage with session := session }
      match reply with
      | some (takes, a) => { stage with now := stage.now + takes }.happen canceled r (.answer a)
      | none => stage.happen true r .cancel

/-- Lets a receiver go on to its end. -/
def receive (canceled : Bool) :
    (fuel : Nat) → Stage → Receiver → Stage × Option (Except Queue.Failure (List Entry))
  | 0, stage, _ => (stage, none)
  | fuel + 1, stage, r =>
    match r.phase with
    | .ended result => (stage, some result)
    | _ =>
      let (stage, r) := stage.receiveOnce canceled r
      receive canceled fuel stage r

/-- Gives the messages of a batch their numbers. -/
def ofBatch (stage : Stage) : Option (Except Queue.Failure (List Entry)) → Stage × StepAnswer
  | none => (stage, .timedOut)
  | some (.error f) => (stage, .failed f)
  | some (.ok batch) =>
    let numbered := batch.zipIdx.map fun (e, i) => (stage.inbox.length + i, e)
    ({ stage with inbox := stage.inbox ++ batch }, .messages numbered)

/-- Does a step; it may have been canceled before. -/
def act (c : Client) (canceled : Bool) (stage : Stage) : Action → Stage × StepAnswer
  | .send content =>
    let cancelAt := if canceled then some stage.now else none
    let (session, ending) :=
      c.send content cancelAt (fun _ => .cancellation) fuel stage.now stage.session
    let stage := { stage with session := session }
    match ending with
    | none => (stage, .timedOut)
    | some ending =>
      let stage := { stage with now := ending.endedAt }
      match ending.result with
      | .ok _ => (stage, .done)
      | .error f => (stage, .failed f)
  | .wait =>
    let (stage, result) := receive canceled fuel stage (.start c 1)
    stage.ofBatch (result.map fun r => (Queue.single c.stream r).map fun e => [e])
  | .waitBatch most =>
    let (stage, result) := receive canceled fuel stage (.start c most)
    stage.ofBatch result
  | .settle script message =>
    match stage.inbox[message]? with
    | none => (stage, .done)
    | some e =>
      let (session, ending) :=
        c.settle script e (fun _ => .cancellation) fuel stage.now stage.session
      let stage := { stage with session := session }
      match ending with
      | none => (stage, .timedOut)
      | some (.ok _, now) => ({ stage with now := now }, .done)
      | some (.error f, now) => ({ stage with now := now }, .failed f)

/-- Does steps, one after the other. -/
def performAll (c : Client) (stage : Stage) : List (Action × Bool) → List StepEntry
  | [] => []
  | (action, canceled) :: rest =>
    let (stage, answer) :=
      act c canceled { stage with session := { stage.session with commands := [] } } action
    ⟨answer, stage.session.commands.reverse.map Prod.snd⟩ :: stage.performAll c rest

end Stage

/-- Opens a queue of a broker with these replies, and does steps on it. An endpoint may
be named that is no address of a broker. -/
def rehearse (settings : Queue.Settings) (consumer : String) (replies : List Reply)
    (steps : List (Action × Bool)) :
    Except Queue.Failure Client × List Command × List StepEntry :=
  match if settings.endpoint.isEmpty then none else addressFault? settings.endpoint with
  | some f => (.error f.toFailure, [], [])
  | none =>
    let (s, opened) := Client.open settings consumer ⟨replies, []⟩
    let commands := s.commands.reverse.map Prod.snd
    match opened with
    | .error f => (.error f, commands, [])
    | .ok c => (.ok c, commands, (Stage.mk 0 s .empty []).performAll c steps)

end Leasework.Broker
