import Leasework.Rehearsal.Stage

/-!
# `Leasework.Rehearsal.Run`: a rehearsal from its first step to its last

The main steps come one after the other. Each of them ends when it and all the steps
beside it are over; then everything is looked at.
-/

set_option autoImplicit false

namespace Leasework.Rehearsal

/-- A queue of a rehearsal. -/
structure QueuePlan where
  /-- Its name. -/
  name : String
  /-- How long its messages are leased, in milliseconds. -/
  leaseMillis : UInt64
  /-- How it is used. -/
  patience : Queue.Patience

/-- A rehearsal. -/
structure Plan where
  /-- Its queues; the first holds requests and the second responses. -/
  queues : List QueuePlan
  /-- The script of the handler, unless requests are echoed. -/
  script : Option Script
  /-- Whether visible messages and batches are shown sorted. -/
  isSorted : Bool
  /-- Its main steps. -/
  steps : List Step

/-- The empty store of a queue. -/
def QueuePlan.store (q : QueuePlan) : Queue.Store :=
  .empty q.name (Span.ofMillis q.leaseMillis).toNanos

/-- The post between the first two queues. -/
def Plan.post? (ways : List Queue.Handle) (leases : List Span) : Option Work.Post :=
  match ways, leases with
  | requests :: responses :: _, lease :: _ =>
    match Work.Post.between requests responses 0 lease with
    | .ok post => some post
    | .error _ => none
  | _, _ => none

/-- The stage before the first step. -/
def Plan.stage (p : Plan) : Stage :=
  let ways := p.queues.zipIdx.map fun (q, i) => ⟨i, q.patience⟩
  let leases := p.queues.map fun q => Span.ofMillis q.leaseMillis
  { world := ⟨(Plant.start (p.queues.map QueuePlan.store)).addBoard.1, []⟩
    script := p.script
    isSorted := p.isSorted
    ways := ways
    leases := leases
    post := Plan.post? ways leases
    board := 0
    inbox := []
    keepers := []
    acts := []
    preparing := []
    notes := []
    mostAtWork := 0
    waiting := []
    running := []
    finished := [] }

mutual

/-- A step and the steps beside it as they wait for their beginnings: steps are numbered
from `first` on, and begin after a base. -/
def waitingOf (first base : Nat) : Step → List Waiting
  | .mk after action cancelMillis beside =>
    ⟨first, base + after, action, cancelMillis⟩ :: waitingOfAll (first + 1) (base + after) beside

/-- Steps as they wait for their beginnings. -/
def waitingOfAll (first base : Nat) : List Step → List Waiting
  | [] => []
  | s :: rest => waitingOf first base s ++ waitingOfAll (first + s.size) base rest

end

mutual

/-- What is known of a step and the steps beside it. -/
def entryOf (finished : List Finished) (first : Nat) : Step → Entry
  | .mk _ _ _ beside =>
    let entries := entriesOf finished (first + 1) beside
    match finished.find? fun f => f.number = first with
    | some f => .mk f.answer f.elapsedMillis entries
    | none => .mk .timedOut 0 entries

/-- What is known of steps. -/
def entriesOf (finished : List Finished) (first : Nat) : List Step → List Entry
  | [] => []
  | s :: rest => entryOf finished first s :: entriesOf finished (first + s.size) rest

end

/-- How many changes a main step may take. -/
def fuel : Nat := 1000000000000

/-- Does a main step. -/
def Stage.perform (s : Stage) (step : Step) : Stage × MainEntry :=
  let s := { s with waiting := waitingOf 0 s.millis step, notes := [], finished := [] }
  let s := s.run fuel
  let (s, view) := s.look
  (s, ⟨entryOf s.finished 0 step, s.notes.reverse, s.mostAtWork, view⟩)

/-- Does all main steps, one after the other. -/
def Stage.performAll (s : Stage) : List Step → List MainEntry
  | [] => []
  | step :: rest =>
    let (s, entry) := s.perform step
    entry :: s.performAll rest

/-- Does the whole rehearsal. -/
def Plan.run (p : Plan) : List MainEntry := p.stage.performAll p.steps

end Leasework.Rehearsal
