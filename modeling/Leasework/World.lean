import Leasework.Bench.Run
import Leasework.Crew.Run

/-!
# `Leasework.World`: the plant and its parties

A party makes calls, consumes requests, runs a crew or measures throughput, and has one
cancellation of its own. The world goes from state to state by *events*: time passes,
somebody is canceled, a fault is injected, a keeper or a party makes a step, a party
joins or is dropped. `World.step` says which events are possible and what they lead to;
any order of possible events is a run of the world.

Time only goes forward, and clocks show whole milliseconds: a timer is noticed at the
first whole millisecond that is not before its moment.
-/

set_option autoImplicit false

namespace Leasework

/-- What a party is about. -/
inductive Task where
  /-- A single queue call. -/
  | call (call : Queue.Call)
  /-- A queue call that is over. -/
  | called (handle : Queue.Handle) (result : Except Queue.Failure Queue.Reply)
  /-- Waits for a keeper that has been told to stop. -/
  | collecting (keeper : Nat)
  /-- The keeper has ended, with so many renewals that succeeded and that failed. -/
  | collected (renewed failed : UInt32)
  /-- A consumer. -/
  | consumer (consumer : Work.Consumer)
  /-- A crew. -/
  | crew (crew : Crew.Run)
  /-- A throughput run. -/
  | bench (run : Bench.Run)
  /-- A throughput run that is over. -/
  | measured (report : Bench.Report)
  /-- The party has been dropped. -/
  | gone

/-- A party. -/
structure Party where
  /-- Whether it has been canceled. -/
  isCanceled : Bool
  /-- What it is about. -/
  task : Task

/-- A step of a party. -/
inductive PartyMove where
  /-- A step of its call. -/
  | call (move : Queue.CallMove)
  /-- Its keeper has ended. -/
  | collect
  /-- A step of its consumer. -/
  | consumer (move : Work.ConsumerMove)
  /-- A step of its crew. -/
  | crew (move : Crew.Move)
  /-- A step of its throughput run. -/
  | bench (move : Bench.Move)
  /-- Its throughput run is over. -/
  | measure

namespace Party

/-- Makes a step, if it is possible. -/
def step (p : Plant) (party : Party) : PartyMove → Option (Plant × Party)
  | .call move =>
    match party.task with
    | .call call => do
      let (p, progress) ← p.stepCall party.isCanceled call move
      match progress with
      | .going call => some (p, { party with task := .call call })
      | .ended result => some (p, { party with task := .called call.handle result })
    | _ => none
  | .collect =>
    match party.task with
    | .collecting keeper => do
      let (p, k) ← p.collectKeeper? keeper
      some (p, { party with task := .collected k.renewed k.failed })
    | _ => none
  | .consumer move =>
    match party.task with
    | .consumer c => do
      let (p, c) ← c.step party.isCanceled p move
      some (p, { party with task := .consumer c })
    | _ => none
  | .crew move =>
    match party.task with
    | .crew r => do
      let (p, r) ← r.step party.isCanceled p move
      some (p, { party with task := .crew r })
    | _ => none
  | .bench move =>
    match party.task with
    | .bench r => do
      let (p, r) ← r.step party.isCanceled p move
      some (p, { party with task := .bench r })
    | _ => none
  | .measure =>
    match party.task with
    | .bench r => do
      let report ← r.report? p
      some (p, { party with task := .measured report })
    | _ => none

/-- A step that is possible now and needs no handler. -/
def next? (p : Plant) (party : Party) : Option PartyMove :=
  match party.task with
  | .call call => (p.nextCallMove? party.isCanceled call).map .call
  | .collecting keeper => if (p.collectKeeper? keeper).isSome then some .collect else none
  | .consumer c => (c.next? party.isCanceled p).map .consumer
  | .crew r => (r.next? party.isCanceled p).map .crew
  | .bench r =>
    ((r.next? party.isCanceled p).map .bench).or
      (if (r.report? p).isSome then some .measure else none)
  | _ => none

/-- The moments at which the party wakes up by itself. -/
def timers (party : Party) : List Nat :=
  match party.task with
  | .call call => call.timer?.toList
  | .consumer c => c.timer?.toList
  | .crew r => r.timers
  | .bench r => r.timers
  | _ => []

/-- What is left behind when the party is dropped. -/
def abandon (p : Plant) (party : Party) : Plant :=
  match party.task with
  | .consumer c => c.abandon p
  | .crew r => r.abandon p
  | .collecting keeper => p.leaveKeeper keeper
  | _ => p

/-- The consumers of the party, each with the move of the party that a move of it is. -/
def consumers (party : Party) : List (Work.Consumer × (Work.ConsumerMove → PartyMove)) :=
  match party.task with
  | .consumer c => [(c, .consumer)]
  | .crew r =>
    r.roster.slots.zipIdx.filterMap fun
      | (.running c, i) => some (c, fun move => .crew (.consume i move))
      | _ => none
  | _ => []

end Party

/-- The plant and its parties. -/
structure World where
  /-- What the parties share. -/
  plant : Plant
  /-- The parties, in the order in which they joined. -/
  parties : List Party

/-- Something that happens in the world. -/
inductive Event where
  /-- The clock comes to a millisecond. -/
  | advance (millis : Nat)
  /-- A party is canceled. -/
  | cancel (party : Nat)
  /-- Faults are injected into a store. -/
  | inject (store : Nat) (kind : Queue.FaultKind) (count : Nat)
  /-- Somebody looks at a store, which reclaims expired leases. -/
  | observe (store : Nat)
  /-- A keeper makes a step. -/
  | keeper (number : Nat)
  /-- A keeper starts for a message. -/
  | keep (handle : Queue.Handle) (delivery : Queue.Delivery) (period : Nat)
  /-- A keeper is told to stop. -/
  | stop (keeper : Nat)
  /-- A keeper is left by its owner. -/
  | leave (keeper : Nat)
  /-- A board is put up. -/
  | board
  /-- A party joins. -/
  | join (party : Party)
  /-- A consumer joins that works on a message it has been given. -/
  | assign (post : Work.Post) (handle : Queue.Handle) (delivery : Queue.Delivery)
  /-- A party makes a step. -/
  | move (party : Nat) (move : PartyMove)
  /-- A party is dropped. -/
  | drop (party : Nat)

namespace World

/-- Makes an event happen, if it is possible. -/
def step (w : World) : Event → Option World
  | .advance millis =>
    if w.plant.now ≤ millis * nanosPerMilli then
      some { w with plant := { w.plant with now := millis * nanosPerMilli } }
    else none
  | .cancel i =>
    if i < w.parties.length then
      some { w with parties := w.parties.modify i fun party => { party with isCanceled := true } }
    else none
  | .inject store kind count =>
    some { w with plant := w.plant.onStore store (·.inject kind count) }
  | .observe store => some { w with plant := w.plant.onStore store (·.reclaim w.plant.now) }
  | .keeper number => (w.plant.stepKeeper number).map fun p => { w with plant := p }
  | .keep handle delivery period =>
    some { w with plant := (w.plant.startKeeper handle delivery period).1 }
  | .stop keeper => some { w with plant := w.plant.stopKeeper keeper }
  | .leave keeper => some { w with plant := w.plant.leaveKeeper keeper }
  | .board => some { w with plant := w.plant.addBoard.1 }
  | .join party => some { w with parties := w.parties ++ [party] }
  | .assign post handle delivery =>
    let (p, c) := Work.Consumer.given w.plant post handle delivery
    some ⟨p, w.parties ++ [⟨false, .consumer c⟩]⟩
  | .move i move => do
    let party ← w.parties[i]?
    let (p, party) ← party.step w.plant move
    some ⟨p, w.parties.set i party⟩
  | .drop i => do
    let party ← w.parties[i]?
    some ⟨party.abandon w.plant, w.parties.set i { party with task := .gone }⟩

/-- A handler that is at work on a request. -/
structure HandlerAtWork where
  /-- The number of the keeper beside it. -/
  number : Nat
  /-- The request. -/
  content : String
  /-- Whether it has been canceled. -/
  isCanceled : Bool
  /-- The event with which its consumer makes a move. -/
  event : Work.ConsumerMove → Event

/-- The handlers that are at work. -/
def handlers (w : World) : List HandlerAtWork :=
  w.parties.zipIdx.flatMap fun (party, i) =>
    party.consumers.filterMap fun (c, move) =>
      c.handling?.map fun (number, content) =>
        ⟨number, content, party.isCanceled, fun m => .move i (move m)⟩

/-- An event that is possible now, makes somebody go on, and needs no handler. -/
def next? (w : World) : Option Event :=
  let ofKeepers := w.plant.keepers.findSome? fun e =>
    if w.plant.canStepKeeper e then some (.keeper e.number) else none
  ofKeepers.or <| w.parties.zipIdx.findSome? fun (party, i) =>
    (party.next? w.plant).map (.move i)

/-- The moments at which somebody wakes up by himself. -/
def timers (w : World) : List Nat :=
  w.plant.keepers.filterMap Plant.keeperTimer? ++ w.parties.flatMap Party.timers

/-- Lets everybody go on who can, as long as the fuel lasts. -/
def settle : (fuel : Nat) → World → World
  | 0, w => w
  | fuel + 1, w =>
    match w.next?.bind w.step with
    | some w => settle fuel w
    | none => w

end World

end Leasework
