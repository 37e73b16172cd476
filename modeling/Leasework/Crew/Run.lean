import Leasework.Crew.Roster
import Leasework.Work.Consumer

/-!
# `Leasework.Crew.Run`: a crew of consumers at work

The slots of the roster hold consumers that repeat. Everything they do is a step of the
crew; shutdown is their cancellation.
-/

set_option autoImplicit false

namespace Leasework.Crew

/-- A crew at work. -/
structure Run where
  /-- What its consumers work between. -/
  post : Work.Post
  /-- Its slots, and where it is. -/
  roster : Roster Work.Consumer

/-- A step of a crew. -/
inductive Move where
  /-- The handler is ready, or refuses. -/
  | started (answer : Except Work.Refusal Unit)
  /-- A consumer is put into a slot. -/
  | staff
  /-- Draining begins. -/
  | close
  /-- A slot that is over is taken away. -/
  | reap (slot : Nat)
  /-- The consumer of a slot makes a step. -/
  | consume (slot : Nat) (move : Work.ConsumerMove)
  /-- The pause of a slot is over. -/
  | rested (slot : Nat)
  /-- All permits have been gathered. -/
  | drained
  /-- The drain time is over. -/
  | expired
  /-- No slot is left. -/
  | joined
  /-- The handler has been disposed of. -/
  | disposed

namespace Run

/-- A crew that has not started yet. -/
def create (post : Work.Post) (o : Options) : Run := ⟨post, .create o⟩

/-- Makes a step of the roster alone. -/
def onRoster (p : Plant) (r : Run) (roster : Option (Roster Work.Consumer)) :
    Option (Plant × Run) :=
  roster.map fun roster => (p, { r with roster := roster })

/-- What a slot does once its consumer has made a step. -/
def settleSlot (now : Nat) (i : Nat) (c : Work.Consumer) (roster : Roster Work.Consumer) :
    Option (Roster Work.Consumer) :=
  match c.exit? with
  | none => some (roster.slotWent i c)
  | some (.finished (.error _)) => roster.slotEnded i true now
  | some _ => roster.slotEnded i false now

/-- Makes a step, if it is possible. -/
def step (isShut : Bool) (p : Plant) (r : Run) : Move → Option (Plant × Run)
  | .started answer => r.onRoster p (r.roster.started answer)
  | .staff => r.onRoster p (r.roster.staff isShut (.waiting r.post true))
  | .close => r.onRoster p (r.roster.close isShut p.now)
  | .reap i => r.onRoster p (r.roster.reap i)
  | .consume i move =>
    match r.roster.slots[i]? with
    | some (.running c) => do
      let (p, c) ← c.step isShut p move
      r.onRoster p (settleSlot p.now i c r.roster)
    | _ => none
  | .rested i => r.onRoster p (r.roster.slotRested i isShut p.now)
  | .drained => r.onRoster p r.roster.drained
  | .expired => do
    let roster ← r.roster.expired p.now
    some (r.roster.consumers.foldl Work.Consumer.abandon p, { r with roster := roster })
  | .joined => r.onRoster p r.roster.joined
  | .disposed => r.onRoster p r.roster.disposed

/-- What is left behind when a crew is dropped: all its consumers are. -/
def abandon (p : Plant) (r : Run) : Plant := r.roster.consumers.foldl Work.Consumer.abandon p

/-- A step of a slot that is possible now. -/
def nextOfSlot? (isShut : Bool) (p : Plant) (i : Nat) : Slot Work.Consumer → Option Move
  | .running c => (c.next? isShut p).map (.consume i)
  | .pausing till => if isShut || till ≤ p.now then some (.rested i) else none
  | .over => none

/-- The first step of a slot that is possible now. -/
def nextOfSlots? (isShut : Bool) (p : Plant) (r : Run) : Option Move :=
  r.roster.slots.zipIdx.findSome? fun (slot, i) => nextOfSlot? isShut p i slot

/-- Takes away the first slot that is over. -/
def nextReap? (r : Run) : Option Move :=
  r.roster.slots.zipIdx.findSome? fun
    | (.over, i) => some (.reap i)
    | _ => none

/-- A step of a crew that is staffing: shutdown comes first, then slots that are over. -/
def nextStaff? (isShut : Bool) (r : Run) : Option Move :=
  if isShut then some .close
  else r.nextReap?.or (if 0 < r.roster.permits.free then some .staff else none)

/-- A step that is possible now and needs no handler. -/
def next? (isShut : Bool) (p : Plant) (r : Run) : Option Move :=
  match r.roster.phase with
  | .starting => none
  | .staffing => (r.nextStaff? isShut).or (r.nextOfSlots? isShut p)
  | .draining till =>
    (r.nextOfSlots? isShut p).or
      (if r.roster.permits.complete then some .drained
      else if till ≤ p.now then some .expired
      else none)
  | .joining =>
    (r.nextOfSlots? isShut p).or
      (r.nextReap?.or (if r.roster.slots.isEmpty then some .joined else none))
  | .disposing => none
  | .ended _ => none

/-- The moment at which a slot wakes up by itself. -/
def slotTimer? : Slot Work.Consumer → Option Nat
  | .running c => c.timer?
  | .pausing till => some till
  | .over => none

/-- The moments at which the crew wakes up by itself. -/
def timers (r : Run) : List Nat :=
  let slots := r.roster.slots.filterMap slotTimer?
  match r.roster.phase with
  | .draining till => till :: slots
  | _ => slots

end Run

end Leasework.Crew
