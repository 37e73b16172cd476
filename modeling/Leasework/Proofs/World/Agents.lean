import Mathlib.Data.List.Perm.Basic
import Leasework.Proofs.Bench.Steps
import Leasework.Proofs.Crew.Steps
import Leasework.World

/-!
# `Leasework.Proofs.World.Agents`: who acts in the world

A party may do many things at once: a crew runs consumers, a throughput run makes many calls.
Taken apart, the parties of a world are a collection of *agents*, each of which makes at most
one call and has at most one keeper.

* `Agent.Turn` lists what a turn of the agents may be. It consumes some agents and produces
  others, and acts on the plant. Most turns replace one agent by what it becomes.
* `Party.step_turn` says that a step of a party is such a turn, and leaves its other agents
  as they were; `World.move_turn` and `World.drop_turn` say the same of the world.

The agents of a world stand in no order that matters, so what they become is said up to a
permutation. A statement about all agents is then shown for those that a turn produces.
-/

set_option autoImplicit false

namespace Leasework

open Queue (Call Progress)
open Work (Consumer ConsumerMove)

/-! ### Agents -/

/-- Somebody who acts on the plant for a party. -/
inductive Agent where
  /-- A consumer. -/
  | consumer (c : Consumer)
  /-- A crew, which sends consumers to its post. -/
  | crew (post : Work.Post)
  /-- A queue call that nothing follows. -/
  | caller (call : Call)
  /-- The wait of a receiver, which deletes what it gets. -/
  | receiver (call : Call)
  /-- The wait that a receiver begins again and again. -/
  | source (call : Call)
  /-- Somebody who waits for a keeper to end. -/
  | collector (keeper : Nat)

namespace Agent

/-- The call that an agent is making. -/
def call? : Agent → Option Call
  | .consumer c => c.call?
  | .caller call => some call
  | .receiver call => some call
  | _ => none

/-- The keeper of an agent. -/
def keeper? : Agent → Option Nat
  | .consumer c => c.keeper?
  | .collector keeper => some keeper
  | _ => none

/-- What is left behind when an agent is dropped. -/
def abandon (p : Plant) : Agent → Plant
  | .consumer c => c.abandon p
  | .collector keeper => p.leaveKeeper keeper
  | _ => p

/-- The agents of a slot of a crew. -/
def ofSlot : Crew.Slot Consumer → List Agent
  | .running c => [.consumer c]
  | _ => []

/-- The agents of a call of a throughput run that may have ended. -/
def ofCall : Option Call → List Agent
  | some call => [.caller call]
  | none => []

/-- The agents of a receiver of a throughput run. -/
def ofReceiver : Bench.Receiver Call → List Agent
  | .waiting call => [.receiver call]
  | .deleting calls => calls.flatMap ofCall
  | _ => []

/-- The agents of a crew. -/
def ofCrew (r : Crew.Run) : List Agent := .crew r.post :: r.roster.slots.flatMap ofSlot

/-- The agents of a throughput run. -/
def ofBench (r : Bench.Run) : List Agent :=
  (r.receiving.flatMap fun handle => [.source (Bench.Run.takeCall r.batch handle)])
    ++ (r.tasks.sends.flatMap ofCall ++ r.tasks.receivers.flatMap ofReceiver)

end Agent

/-- The agents of a party. -/
def Party.agents (party : Party) : List Agent :=
  match party.task with
  | .call call => [.caller call]
  | .collecting keeper => [.collector keeper]
  | .consumer c => [.consumer c]
  | .crew r => Agent.ofCrew r
  | .bench r => Agent.ofBench r
  | _ => []

/-- The agents of all parties. -/
def World.agents (w : World) : List Agent := w.parties.flatMap Party.agents

/-- The consumer that a move of a crew is a move of. -/
def Crew.Run.worker? (r : Crew.Run) : Crew.Move → Option (Consumer × ConsumerMove)
  | .consume i move =>
    match r.roster.slots[i]? with
    | some (.running c) => some (c, move)
    | _ => none
  | _ => none

/-- The consumer that a move of a party is a move of. -/
def Party.worker? (party : Party) (move : PartyMove) : Option (Consumer × ConsumerMove) :=
  match move, party.task with
  | .consumer move, .consumer c => some (c, move)
  | .crew move, .crew r => r.worker? move
  | _, _ => none

/-- The consumer that an event is a move of. -/
def World.worker? (w : World) : Event → Option (Consumer × ConsumerMove)
  | .move i move => w.parties[i]?.bind fun party => party.worker? move
  | _ => none

/-! ### Turns -/

/-- What a turn may be: the consumer that moves, the agents that take the turn, what becomes
of the plant, and what becomes of the agents. -/
inductive Agent.Turn (p : Plant) :
    Option (Consumer × ConsumerMove) → List Agent → Plant → List Agent → Prop
  /-- Nothing happens that anybody could see. -/
  | idle : Turn p none [] p []
  /-- A consumer makes a step. -/
  | worked {canceled : Bool} {c c' : Consumer} {move : ConsumerMove} {p' : Plant}
      (st : c.Step canceled p move p' c') :
      Turn p (some (c, move)) [.consumer c] p' [.consumer c']
  /-- A consumer makes its last step, and its slot is free. -/
  | retired {canceled : Bool} {c c' : Consumer} {move : ConsumerMove} {p' : Plant}
      (st : c.Step canceled p move p' c') : Turn p (some (c, move)) [.consumer c] p' []
  /-- A crew sends a consumer to its post. -/
  | hired (post : Work.Post) :
      Turn p none [.crew post] p [.crew post, .consumer (.waiting post true)]
  /-- Agents are dropped, one after the other. -/
  | dropped (gone : List Agent) : Turn p none gone (gone.foldl Agent.abandon p) []
  /-- A call goes on. -/
  | called {canceled : Bool} {call call' : Call} {move : Queue.CallMove} {p' : Plant}
      (made : p.stepCall canceled call move = some (p', .going call')) :
      Turn p none [.caller call] p' [.caller call']
  /-- A call is over. -/
  | answered {canceled : Bool} {call : Call} {move : Queue.CallMove} {p' : Plant}
      {result : Except Queue.Failure Queue.Reply}
      (made : p.stepCall canceled call move = some (p', .ended result)) :
      Turn p none [.caller call] p' []
  /-- The wait of a receiver goes on. -/
  | awaited {canceled : Bool} {call call' : Call} {move : Queue.CallMove} {p' : Plant}
      (made : p.stepCall canceled call move = some (p', .going call')) :
      Turn p none [.receiver call] p' [.receiver call']
  /-- A receiver has got a batch, and deletes its messages. -/
  | received {canceled : Bool} {call : Call} {move : Queue.CallMove} {p' : Plant}
      {reply : Queue.Reply}
      (made : p.stepCall canceled call move = some (p', .ended (.ok reply))) :
      Turn p none [.receiver call] p'
        ((Bench.Run.deletions call.handle reply).map .caller)
  /-- The wait of a receiver is over without a batch. -/
  | missed {canceled : Bool} {call : Call} {move : Queue.CallMove} {p' : Plant}
      {f : Queue.Failure}
      (made : p.stepCall canceled call move = some (p', .ended (.error f))) :
      Turn p none [.receiver call] p' []
  /-- A receiver waits for one more batch. -/
  | resumed (call : Call) : Turn p none [.source call] p [.source call, .receiver call]
  /-- A keeper has ended, and is collected. -/
  | collected {k : Nat} {p' : Plant} {ended : Lease.Keeper Call}
      (made : p.collectKeeper? k = some (p', ended)) : Turn p none [.collector k] p' []

/-- A turn of some agents out of a collection, which leaves the others as they were. -/
def Agent.TurnIn (p : Plant) (worker : Option (Consumer × ConsumerMove)) (agents : List Agent)
    (p' : Plant) (agents' : List Agent) : Prop :=
  ∃ before after rest, agents.Perm (before ++ rest) ∧ agents'.Perm (after ++ rest) ∧
    Agent.Turn p worker before p' after

namespace Agent.TurnIn
variable {p p' : Plant} {worker : Option (Consumer × ConsumerMove)}
  {agents agents' : List Agent}

/-- Nothing happens that anybody could see. -/
theorem idle (h : agents'.Perm agents) : TurnIn p none agents p agents' :=
  ⟨[], [], agents, .refl _, h, .idle⟩

/-- A turn of a whole collection. -/
theorem whole (turn : Agent.Turn p worker agents p' agents') :
    TurnIn p worker agents p' agents' :=
  ⟨agents, agents', [], .of_eq (List.append_nil _).symm, .of_eq (List.append_nil _).symm, turn⟩

/-- A turn in a collection is a turn in a larger one. -/
theorem append (t : TurnIn p worker agents p' agents') {all all' others : List Agent}
    (h : all.Perm (agents ++ others)) (h' : all'.Perm (agents' ++ others)) :
    TurnIn p worker all p' all' := by
  obtain ⟨before, after, rest, hbefore, hafter, turn⟩ := t
  refine ⟨before, after, rest ++ others, ?_, ?_, turn⟩
  · rw [← List.append_assoc]
    exact h.trans (hbefore.append_right others)
  · rw [← List.append_assoc]
    exact h'.trans (hafter.append_right others)

end Agent.TurnIn

/-- The agents of a list at a place, and those of the other places. -/
theorem perm_flatMap_eraseIdx {α β : Type} (f : α → List β) {l : List α} {i : Nat} {a : α}
    (h : l[i]? = some a) : (l.flatMap f).Perm (f a ++ (l.eraseIdx i).flatMap f) := by
  obtain ⟨hi, rfl⟩ := List.getElem?_eq_some_iff.mp h
  exact (List.getElem_cons_eraseIdx_perm hi).symm.flatMap_right f

/-- What stands at a place is exchanged, and the other places stay as they are. -/
theorem perm_flatMap_set {α β : Type} (f : α → List β) {l : List α} {i : Nat} {a : α} (a' : α)
    (h : l[i]? = some a) : ((l.set i a').flatMap f).Perm (f a' ++ (l.eraseIdx i).flatMap f) := by
  have hi := (List.getElem?_eq_some_iff.mp h).1
  have hset := perm_flatMap_eraseIdx f (List.getElem?_set_self (a := a') hi)
  rwa [List.eraseIdx_set_eq] at hset

section
variable {α : Type} {l : List α} {i : Nat} {a : α}

/-- What is counted in a list is counted at a place and at the other places. -/
theorem countP_of_getElem? (f : α → Bool) (h : l[i]? = some a) :
    l.countP f = (l.eraseIdx i).countP f + if f a then 1 else 0 := by
  obtain ⟨hi, rfl⟩ := List.getElem?_eq_some_iff.mp h
  rw [← (List.getElem_cons_eraseIdx_perm hi).countP_eq, List.countP_cons]

theorem countP_set_of_getElem? (f : α → Bool) (h : l[i]? = some a) (a' : α) :
    (l.set i a').countP f = (l.eraseIdx i).countP f + if f a' then 1 else 0 := by
  obtain ⟨hi, -⟩ := List.getElem?_eq_some_iff.mp h
  rw [(List.set_perm_cons_eraseIdx hi a').countP_eq, List.countP_cons]

end

/-! ### Crews -/

section Crews
variable {p p' : Plant} {r r' : Crew.Run} {isShut : Bool}

/-- The consumers of a crew are those in its slots. -/
theorem map_consumers (roster : Crew.Roster Consumer) :
    roster.consumers.map Agent.consumer = roster.slots.flatMap Agent.ofSlot := by
  unfold Crew.Roster.consumers
  induction roster.slots with
  | nil => rfl
  | cons slot slots ih =>
    rw [List.flatMap_cons, ← ih]
    cases slot <;> rfl

/-- The consumer of a slot makes a step, and then the slot is what it has become. -/
theorem turn_of_slot {roster : Crew.Roster Consumer} {i : Nat} {c : Consumer}
    {move : ConsumerMove} {slot : Crew.Slot Consumer}
    (hrunning : r.roster.slots[i]? = some (.running c))
    (hslots : roster.slots = r.roster.slots.set i slot)
    (turn : Agent.Turn p (some (c, move)) [.consumer c] p' (Agent.ofSlot slot)) :
    Agent.TurnIn p (r.worker? (.consume i move)) (Agent.ofCrew r) p'
      (Agent.ofCrew { r with roster := roster }) := by
  have hworker : r.worker? (.consume i move) = some (c, move) := by
    simp only [Crew.Run.worker?, hrunning]
  rw [hworker]
  refine ⟨_, _, .crew r.post :: (r.roster.slots.eraseIdx i).flatMap Agent.ofSlot, ?_, ?_, turn⟩
  · exact ((perm_flatMap_eraseIdx Agent.ofSlot hrunning).cons _).trans (.swap _ _ _)
  · show (Agent.crew r.post :: roster.slots.flatMap Agent.ofSlot).Perm _
    rw [hslots]
    exact ((perm_flatMap_set Agent.ofSlot slot hrunning).cons _).trans List.perm_middle.symm

/-- A step of a crew is a turn of its agents. -/
theorem Crew.Run.step_turn {move : Crew.Move} (h : r.step isShut p move = some (p', r')) :
    Agent.TurnIn p (r.worker? move) (Agent.ofCrew r) p' (Agent.ofCrew r') := by
  obtain ⟨roster, st, rfl⟩ := step_cases h
  cases st with
  | readied | refused | closed | drained | joined | disposed => exact .idle (.refl _)
  | staffed =>
    refine ⟨[.crew r.post], _, r.roster.slots.flatMap Agent.ofSlot, .refl _, ?_, .hired r.post⟩
    show (Agent.crew r.post :: (r.roster.slots ++ [_]).flatMap Agent.ofSlot).Perm _
    rw [List.flatMap_append]
    exact List.perm_append_comm.cons _
  | reaped _ ended =>
    -- There was nobody in the slot that is taken away.
    exact .idle ((perm_flatMap_eraseIdx Agent.ofSlot ended).symm.cons _)
  | went running st => exact turn_of_slot running rfl (.worked st)
  | failed running st => exact turn_of_slot running rfl (.retired st)
  | retired running st => exact turn_of_slot running rfl (.retired st)
  | rested pausing =>
    refine .idle (.cons _ ?_)
    exact (perm_flatMap_set Agent.ofSlot .over pausing).trans
      (perm_flatMap_eraseIdx Agent.ofSlot pausing).symm
  | expired =>
    -- All slots are over, so the consumers that were in them are gone.
    have hnobody : r.roster.abortAll.slots.flatMap Agent.ofSlot = [] := by
      simp [Crew.Roster.abortAll, Agent.ofSlot]
    have hfold : (r.roster.consumers.map Agent.consumer).foldl Agent.abandon p
        = r.roster.consumers.foldl Consumer.abandon p := List.foldl_map
    refine ⟨r.roster.slots.flatMap Agent.ofSlot, [], [.crew r.post], ?_, ?_, ?_⟩
    · exact (List.perm_append_singleton _ _).symm
    · show (Agent.crew r.post :: r.roster.abortAll.slots.flatMap Agent.ofSlot).Perm _
      rw [hnobody]
      exact .refl _
    · rw [← hfold, map_consumers]
      exact .dropped _

end Crews

/-! ### Throughput runs -/

section Benches
variable {p p' : Plant} {r r' : Bench.Run} {isStopped : Bool}

/-- A turn of the sends of a throughput run is a turn of its agents. -/
theorem turn_of_sends {worker : Option (Consumer × ConsumerMove)} {tasks : Bench.Tasks Call}
    (h : Agent.TurnIn p worker (r.tasks.sends.flatMap Agent.ofCall) p'
      (tasks.sends.flatMap Agent.ofCall)) (hreceivers : tasks.receivers = r.tasks.receivers) :
    Agent.TurnIn p worker (Agent.ofBench r) p' (Agent.ofBench { r with tasks := tasks }) := by
  refine h.append (List.perm_append_comm_assoc _ _ _) ?_
  unfold Agent.ofBench
  rw [hreceivers]
  exact List.perm_append_comm_assoc _ _ _

/-- A turn of one receiver of a throughput run is a turn of its agents. -/
theorem turn_of_receiver {worker : Option (Consumer × ConsumerMove)} {j : Nat}
    {receiver receiver' : Bench.Receiver Call} {tasks : Bench.Tasks Call}
    (hj : r.tasks.receivers[j]? = some receiver)
    (h : Agent.TurnIn p worker (Agent.ofReceiver receiver) p' (Agent.ofReceiver receiver'))
    (hsends : tasks.sends = r.tasks.sends)
    (hreceivers : tasks.receivers = r.tasks.receivers.set j receiver') :
    Agent.TurnIn p worker (Agent.ofBench r) p' (Agent.ofBench { r with tasks := tasks }) := by
  have hturn : Agent.TurnIn p worker (r.tasks.receivers.flatMap Agent.ofReceiver) p'
      (tasks.receivers.flatMap Agent.ofReceiver) := by
    refine h.append (perm_flatMap_eraseIdx Agent.ofReceiver hj) ?_
    rw [hreceivers]
    exact perm_flatMap_set Agent.ofReceiver receiver' hj
  -- The receivers stand last; they are moved to the front.
  have hlast : ∀ as bs cs : List Agent, (as ++ (bs ++ cs)).Perm (cs ++ (as ++ bs)) := by
    intro as bs cs
    rw [← List.append_assoc]
    exact List.perm_append_comm
  refine hturn.append (hlast _ _ _) ?_
  unfold Agent.ofBench
  rw [hsends]
  exact hlast _ _ _

/-- A receiver that is not at work waits for one more batch, or is over. -/
theorem turn_of_again {j : Nat} {receiver : Bench.Receiver Call} {call : Call}
    {tasks : Bench.Tasks Call} (hj : r.tasks.receivers[j]? = some receiver)
    (hagain : r.again j = some call) (hnobody : Agent.ofReceiver receiver = [])
    (hsends : tasks.sends = r.tasks.sends)
    (hreceivers : tasks.receivers = r.tasks.receivers.set j .over ∨
      tasks.receivers = r.tasks.receivers.set j (.waiting call)) :
    Agent.TurnIn p none (Agent.ofBench r) p (Agent.ofBench { r with tasks := tasks }) := by
  rcases hreceivers with hreceivers | hreceivers
  · refine turn_of_receiver hj ?_ hsends hreceivers
    rw [hnobody]
    exact .idle (.refl _)
  · obtain ⟨handle, hhandle, rfl⟩ := Option.map_eq_some_iff.mp hagain
    -- The source of the receiver begins the new wait, and stays what it is.
    have hsource := perm_flatMap_eraseIdx
      (fun handle => [Agent.source (Bench.Run.takeCall r.batch handle)]) hhandle
    have hset := perm_flatMap_set Agent.ofReceiver
      (.waiting (Bench.Run.takeCall r.batch handle)) hj
    have herase := perm_flatMap_eraseIdx Agent.ofReceiver hj
    rw [hnobody] at herase
    refine ⟨_, _, (r.receiving.eraseIdx j).flatMap
        (fun handle => [Agent.source (Bench.Run.takeCall r.batch handle)])
      ++ (r.tasks.sends.flatMap Agent.ofCall
        ++ (r.tasks.receivers.eraseIdx j).flatMap Agent.ofReceiver), ?_, ?_,
      .resumed (Bench.Run.takeCall r.batch handle)⟩
    · exact (hsource.append (herase.append_left _)).trans (.of_eq (List.append_assoc _ _ _))
    · unfold Agent.ofBench
      rw [hsends, hreceivers]
      refine (hsource.append (hset.append_left _)).trans ?_
      -- The new wait moves to the front, behind its source.
      have hfront : ∀ (a : Agent) (as bs cs : List Agent),
          (as ++ (bs ++ a :: cs)).Perm (a :: (as ++ (bs ++ cs))) := by
        intro a as bs cs
        rw [← List.append_assoc, ← List.append_assoc]
        exact List.perm_middle
      exact (hfront _ _ _ _).cons _

/-- A receiver that goes on takes its wait from the queue that it receives from. -/
theorem nextBatch_cases (tasks : Bench.Tasks Call) (j : Nat) (isStopped : Bool) (call : Call) :
    (tasks.nextBatch j isStopped call).receivers = tasks.receivers.set j .over ∨
      (tasks.nextBatch j isStopped call).receivers = tasks.receivers.set j (.waiting call) := by
  unfold Bench.Tasks.nextBatch
  split
  · exact Or.inl rfl
  · exact Or.inr rfl

/-- Looking whether a run is done changes no call. -/
theorem look_calls (tasks : Bench.Tasks Call) :
    tasks.look.sends = tasks.sends ∧ tasks.look.receivers = tasks.receivers := by
  unfold Bench.Tasks.look
  split <;> exact ⟨rfl, rfl⟩

/-- The agents of deletions that have all begun. -/
theorem flatMap_ofCall_some (calls : List Call) :
    (calls.map some).flatMap Agent.ofCall = calls.map .caller := by
  induction calls with
  | nil => rfl
  | cons call calls ih =>
    rw [List.map_cons, List.flatMap_cons, ih]
    rfl

/-- A turn of one call of a list of calls, some of which have ended. -/
theorem turn_of_call {worker : Option (Consumer × ConsumerMove)} {calls : List (Option Call)}
    {i : Nat} {call : Call} {slot : Option Call} (hi : calls[i]? = some (some call))
    (turn : Agent.Turn p worker [.caller call] p' (Agent.ofCall slot)) :
    Agent.TurnIn p worker (calls.flatMap Agent.ofCall) p'
      ((calls.set i slot).flatMap Agent.ofCall) :=
  ⟨_, _, _, perm_flatMap_eraseIdx Agent.ofCall hi, perm_flatMap_set Agent.ofCall slot hi, turn⟩

/-- A step of a throughput run is a turn of its agents. -/
theorem Bench.Run.step_turn {move : Bench.Move} (h : r.step isStopped p move = some (p', r')) :
    Agent.TurnIn p none (Agent.ofBench r) p' (Agent.ofBench r') := by
  obtain ⟨tasks, st, rfl⟩ := step_cases h
  cases st with
  | sending there made =>
    have hturn : Agent.Turn p none _ p' (Agent.ofCall (some _)) := .called made
    exact turn_of_sends (turn_of_call there hturn) rfl
  | sent there made =>
    have hturn : Agent.Turn p none _ p' (Agent.ofCall none) := .answered made
    exact turn_of_sends (turn_of_call there hturn) rfl
  | unsent there made =>
    have hturn : Agent.Turn p none _ p' (Agent.ofCall none) := .answered made
    split
    · exact turn_of_sends (turn_of_call there hturn) rfl
    · obtain ⟨hsends, hreceivers⟩ := look_calls (r.tasks.sendFailed _)
      refine turn_of_sends ?_ hreceivers
      rw [hsends]
      exact turn_of_call there hturn
  | awaiting there made =>
    have hturn : Agent.Turn p none _ p' (Agent.ofReceiver (.waiting _)) := .awaited made
    exact turn_of_receiver there (.whole hturn) rfl rfl
  | received there made =>
    refine turn_of_receiver there (.whole ?_) rfl rfl
    show Agent.Turn _ _ _ _ ((Bench.Run.deletions _ _).map some |>.flatMap Agent.ofCall)
    rw [flatMap_ofCall_some]
    exact .received made
  | quit there made =>
    have hturn : Agent.Turn p none _ p' (Agent.ofReceiver .over) := .missed made
    exact turn_of_receiver there (.whole hturn) rfl rfl
  | missed there made =>
    have hturn : Agent.Turn p none _ p' (Agent.ofReceiver (.resting (p'.now + Bench.restTime))) :=
      .missed made
    exact turn_of_receiver there (.whole hturn) rfl rfl
  | @deleting j k _ calls call call' _ there begun made =>
    have hturn : Agent.Turn p none _ p' (Agent.ofCall (some _)) := .called made
    have hcalls : Agent.TurnIn p none _ p'
      (Agent.ofReceiver (.deleting (calls.set k (some call')))) := turn_of_call begun hturn
    exact turn_of_receiver there hcalls rfl rfl
  | @deleted j k _ calls _ _ _ there begun made =>
    have hturn : Agent.Turn p none _ p' (Agent.ofCall none) := .answered made
    have hcalls : Agent.TurnIn p none _ p'
      (Agent.ofReceiver (.deleting (calls.set k none))) := turn_of_call begun hturn
    exact turn_of_receiver there hcalls rfl rfl
  | @cleared j calls call there all next =>
    obtain ⟨hsends, hreceivers⟩ := look_calls r.tasks
    -- All deletions have ended, so no call is left.
    have hnobody : Agent.ofReceiver (.deleting calls) = [] := by
      refine List.flatMap_eq_nil_iff.mpr fun slot hslot => ?_
      have hnone := List.all_eq_true.mp all slot hslot
      cases slot with
      | none => rfl
      | some call => cases hnone
    have hcases := nextBatch_cases r.tasks.look j isStopped call
    rw [hreceivers] at hcases
    exact turn_of_again there next hnobody hsends hcases
  | rested there late next =>
    exact turn_of_again there next rfl rfl (nextBatch_cases r.tasks _ isStopped _)
  | @quitRest j till there =>
    have hidle : Agent.TurnIn p none (Agent.ofReceiver (.resting till)) p
      (Agent.ofReceiver .over) := .idle (.refl _)
    exact turn_of_receiver there hidle rfl rfl

end Benches

/-! ### Parties and the world -/

/-- An agent that makes calls, and does nothing else. -/
def Agent.OnlyCalls (a : Agent) : Prop :=
  ∃ call, a = .caller call ∨ a = .receiver call ∨ a = .source call

/-- The agents of a throughput run only make calls. -/
theorem Agent.onlyCalls_of_mem_ofBench {r : Bench.Run} {a : Agent} (ha : a ∈ Agent.ofBench r) :
    a.OnlyCalls := by
  have hcalls : ∀ calls : List (Option Call), a ∈ calls.flatMap Agent.ofCall →
      a.OnlyCalls := by
    intro calls ha
    obtain ⟨slot, -, ha⟩ := List.mem_flatMap.mp ha
    cases slot with
    | none => cases ha
    | some call => exact ⟨call, Or.inl (List.mem_singleton.mp ha)⟩
  rcases List.mem_append.mp ha with ha | ha
  · obtain ⟨handle, -, ha⟩ := List.mem_flatMap.mp ha
    exact ⟨_, Or.inr (Or.inr (List.mem_singleton.mp ha))⟩
  · rcases List.mem_append.mp ha with ha | ha
    · exact hcalls _ ha
    · obtain ⟨receiver, -, ha⟩ := List.mem_flatMap.mp ha
      cases receiver with
      | waiting call => exact ⟨call, Or.inr (Or.inl (List.mem_singleton.mp ha))⟩
      | deleting calls => exact hcalls calls ha
      | _ => cases ha

/-- Dropping a throughput run leaves nothing behind. -/
theorem foldl_abandon_ofBench (p : Plant) (r : Bench.Run) :
    (Agent.ofBench r).foldl Agent.abandon p = p := by
  -- Who only makes calls has no keeper to leave.
  have hnothing : ∀ agents : List Agent, (∀ a ∈ agents, Agent.abandon p a = p) →
      agents.foldl Agent.abandon p = p := by
    intro agents h
    induction agents with
    | nil => rfl
    | cons a agents ih =>
      rw [List.foldl_cons, h a List.mem_cons_self]
      exact ih fun b hb => h b (List.mem_cons_of_mem _ hb)
  refine hnothing _ fun a ha => ?_
  obtain ⟨call, rfl | rfl | rfl⟩ := Agent.onlyCalls_of_mem_ofBench ha
  · rfl
  · rfl
  · rfl

/-- Dropping a party drops its agents, one after the other. -/
theorem Party.foldl_abandon (p : Plant) (party : Party) :
    party.agents.foldl Agent.abandon p = party.abandon p := by
  obtain ⟨isCanceled, task⟩ := party
  cases task with
  | crew r =>
    show (r.roster.slots.flatMap Agent.ofSlot).foldl Agent.abandon p = r.abandon p
    rw [← map_consumers, List.foldl_map]
    rfl
  | bench r => exact foldl_abandon_ofBench p r
  | _ => rfl

/-- A step of a party is a turn of its agents. -/
theorem Party.step_turn {p p' : Plant} {party party' : Party} {move : PartyMove}
    (h : party.step p move = some (p', party')) :
    Agent.TurnIn p (party.worker? move) party.agents p' party'.agents := by
  obtain ⟨isCanceled, task⟩ := party
  cases move with
  | call move =>
    cases task with
    | call call =>
      simp only [Party.step, bind, Option.bind_eq_some_iff] at h
      obtain ⟨⟨p₁, progress⟩, made, heq⟩ := h
      cases progress with
      | going call' =>
        cases heq
        exact .whole (.called made)
      | ended result =>
        cases heq
        exact .whole (.answered made)
    | _ => cases h
  | collect =>
    cases task with
    | collecting keeper =>
      simp only [Party.step, bind, Option.bind_eq_some_iff] at h
      obtain ⟨⟨p₁, ended⟩, made, heq⟩ := h
      cases heq
      exact .whole (.collected made)
    | _ => cases h
  | consumer move =>
    cases task with
    | consumer c =>
      simp only [Party.step, bind, Option.bind_eq_some_iff] at h
      obtain ⟨⟨p₁, c'⟩, hstep, heq⟩ := h
      cases heq
      exact .whole (.worked (Consumer.step_cases hstep))
    | _ => cases h
  | crew move =>
    cases task with
    | crew r =>
      simp only [Party.step, bind, Option.bind_eq_some_iff] at h
      obtain ⟨⟨p₁, r'⟩, hstep, heq⟩ := h
      cases heq
      exact Crew.Run.step_turn hstep
    | _ => cases h
  | bench move =>
    cases task with
    | bench r =>
      simp only [Party.step, bind, Option.bind_eq_some_iff] at h
      obtain ⟨⟨p₁, r'⟩, hstep, heq⟩ := h
      cases heq
      exact Bench.Run.step_turn hstep
    | _ => cases h
  | measure =>
    cases task with
    | bench r =>
      simp only [Party.step, bind, Option.bind_eq_some_iff] at h
      obtain ⟨report, hreport, heq⟩ := h
      cases heq
      -- The sources that are left have nothing to begin any more.
      have hdropped := Agent.Turn.dropped (p := p) (Agent.ofBench r)
      rw [foldl_abandon_ofBench] at hdropped
      exact .whole hdropped
    | _ => cases h

namespace World
variable {w w' : World} {i : Nat}

/-- A step of a party is a turn of the agents of the world. -/
theorem move_turn {move : PartyMove} (h : w.step (.move i move) = some w') :
    Agent.TurnIn w.plant (w.worker? (.move i move)) w.agents w'.plant w'.agents := by
  simp only [step, bind, Option.bind_eq_some_iff] at h
  obtain ⟨party, hi, ⟨p', party'⟩, hstep, heq⟩ := h
  cases heq
  have hworker : w.worker? (.move i move) = party.worker? move := by
    simp only [worker?, hi, Option.bind_some]
  rw [hworker]
  exact (Party.step_turn hstep).append (perm_flatMap_eraseIdx Party.agents hi)
    (perm_flatMap_set Party.agents party' hi)

/-- The drop of a party is a turn of the agents of the world. -/
theorem drop_turn (h : w.step (.drop i) = some w') :
    Agent.TurnIn w.plant none w.agents w'.plant w'.agents := by
  simp only [step, bind, Option.bind_eq_some_iff] at h
  obtain ⟨party, hi, heq⟩ := h
  cases heq
  refine ⟨party.agents, [], _, perm_flatMap_eraseIdx Party.agents hi, ?_, ?_⟩
  · exact perm_flatMap_set Party.agents { party with task := .gone } hi
  · rw [← Party.foldl_abandon]
    exact .dropped _

/-- Canceling a party changes no agent. -/
theorem agents_cancel (h : i < w.parties.length) :
    (⟨w.plant, w.parties.modify i fun party => { party with isCanceled := true }⟩ :
      World).agents.Perm w.agents := by
  have hi := List.getElem?_eq_getElem h
  have hset := perm_flatMap_set Party.agents { w.parties[i] with isCanceled := true } hi
  have hmodify : w.parties.modify i (fun party => { party with isCanceled := true })
      = w.parties.set i { w.parties[i] with isCanceled := true } := by
    rw [List.modify_eq_set_getElem?, hi]
    rfl
  unfold agents
  rw [hmodify]
  exact hset.trans (perm_flatMap_eraseIdx Party.agents hi).symm

/-- A party that joins brings its agents. -/
theorem agents_append (p : Plant) (parties : List Party) (party : Party) :
    (⟨p, parties ++ [party]⟩ : World).agents = parties.flatMap Party.agents ++ party.agents := by
  unfold agents
  rw [List.flatMap_append, List.flatMap_singleton]

end World

end Leasework
