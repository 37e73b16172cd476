import Leasework.Crew.Options
import Leasework.Crew.Permits
import Leasework.Work.Failure

/-!
# `Leasework.Crew.Roster`: the slots of a crew, from the first to the last

A crew has as many permits as consumers may run at once. While it is *staffing* it puts a
consumer into a slot for every free permit. A slot gives its permit back when its
consumer ends; after a failure it first pauses. When shutdown is asked for the crew is
*draining*: it gathers the permits of all slots, and aborts the slots that still hold
one when the drain time is over. Then it is *joining* until no slot is left, and at last
it is *disposing* of the handler.

The handler is made ready before all that. If it refuses, the crew ends at once.

A roster does not say what runs in a slot: `ρ` stands for a consumer that runs, and its
end is reported by `slotEnded`.
-/

set_option autoImplicit false

namespace Leasework.Crew

/-- A slot that a permit was taken for. -/
inductive Slot (ρ : Type) where
  /-- A consumer runs in it. -/
  | running (consumer : ρ)
  /-- Its consumer failed, and it pauses till a moment. -/
  | pausing (till : Nat)
  /-- It is over and has given its permit back. -/
  | over

/-- Where a crew is. -/
inductive Phase where
  /-- The handler is being made ready. -/
  | starting
  /-- Consumers are put into slots. -/
  | staffing
  /-- The permits of the slots are gathered, till a moment. -/
  | draining (till : Nat)
  /-- The slots that are left are waited for. -/
  | joining
  /-- The handler is being disposed of. -/
  | disposing
  /-- The crew has ended, or has refused to start. -/
  | ended (result : Except Work.Failure Unit)

/-- The slots of a crew and where it is. -/
structure Roster (ρ : Type) where
  /-- How many consumers may run at once. -/
  size : Nat
  /-- How long draining may take. -/
  drainTime : Nat
  /-- How long a slot pauses after a failure. -/
  pause : Nat
  /-- Where the crew is. -/
  phase : Phase
  /-- The permits that no slot holds. -/
  permits : Permits
  /-- The slots. -/
  slots : List (Slot ρ)

/-- Whether a slot holds a permit. -/
def Slot.holds {ρ : Type} : Slot ρ → Bool
  | .over => false
  | _ => true

namespace Roster

/-- A crew that has not started yet. -/
def create {ρ : Type} (o : Options) : Roster ρ :=
  ⟨o.size, o.drainTime.toNanos, o.pause.toNanos, .starting, .full o.size, []⟩

/-- The most permits that can be gathered at once. -/
def mostGathered : Nat := 4294967295

/-- The permits that draining gathers. -/
def drainPermits {ρ : Type} (r : Roster ρ) : Nat := min r.size mostGathered

/-- The handler is ready, or refuses. -/
def started {ρ : Type} (answer : Except Work.Refusal Unit) (r : Roster ρ) : Option (Roster ρ) :=
  match r.phase, answer with
  | .starting, .ok _ => some { r with phase := .staffing }
  | .starting, .error refusal => some { r with phase := .ended (.error (.startUp refusal)) }
  | _, _ => none

/-- Puts a consumer into a slot. -/
def staff {ρ : Type} (isShut : Bool) (consumer : ρ) (r : Roster ρ) : Option (Roster ρ) :=
  match r.phase with
  | .staffing =>
    if isShut then none
    else
      r.permits.acquire?.map fun permits =>
        { r with permits := permits, slots := r.slots ++ [.running consumer] }
  | _ => none

/-- Begins to drain once shutdown has been asked for. -/
def close {ρ : Type} (isShut : Bool) (now : Nat) (r : Roster ρ) : Option (Roster ρ) :=
  match r.phase with
  | .staffing =>
    if isShut then
      some
        { r with
          phase := .draining (now + r.drainTime)
          permits := r.permits.gather r.drainPermits }
    else none
  | _ => none

/-- Takes away a slot that is over. -/
def reap {ρ : Type} (i : Nat) (r : Roster ρ) : Option (Roster ρ) :=
  match r.phase, r.slots[i]? with
  | .staffing, some .over => some { r with slots := r.slots.eraseIdx i }
  | .joining, some .over => some { r with slots := r.slots.eraseIdx i }
  | _, _ => none

/-- The consumer of a slot goes on. -/
def slotWent {ρ : Type} (i : Nat) (consumer : ρ) (r : Roster ρ) : Roster ρ :=
  { r with slots := r.slots.set i (.running consumer) }

/-- A slot is over and gives its permit back. -/
def slotOver {ρ : Type} (i : Nat) (r : Roster ρ) : Roster ρ :=
  { r with slots := r.slots.set i .over, permits := r.permits.release }

/-- The consumer of a slot has ended; after a failure the slot pauses. -/
def slotEnded {ρ : Type} (i : Nat) (failed : Bool) (now : Nat) (r : Roster ρ) :
    Option (Roster ρ) :=
  match r.slots[i]? with
  | some (.running _) =>
    if failed then some { r with slots := r.slots.set i (.pausing (now + r.pause)) }
    else some (r.slotOver i)
  | _ => none

/-- A slot has paused long enough, or shutdown has been asked for. -/
def slotRested {ρ : Type} (i : Nat) (isShut : Bool) (now : Nat) (r : Roster ρ) :
    Option (Roster ρ) :=
  match r.slots[i]? with
  | some (.pausing till) => if isShut || till ≤ now then some (r.slotOver i) else none
  | _ => none

/-- All permits have been gathered. -/
def drained {ρ : Type} (r : Roster ρ) : Option (Roster ρ) :=
  match r.phase with
  | .draining _ => if r.permits.complete then some { r with phase := .joining } else none
  | _ => none

/-- Aborts every slot that still holds a permit. -/
def abortAll {ρ : Type} (r : Roster ρ) : Roster ρ :=
  { r with
    slots := r.slots.map fun _ => .over
    permits := (r.slots.filter Slot.holds).foldl (fun permits _ => permits.release) r.permits }

/-- The drain time is over before all permits have been gathered. -/
def expired {ρ : Type} (now : Nat) (r : Roster ρ) : Option (Roster ρ) :=
  match r.phase with
  | .draining till =>
    if !r.permits.complete && till ≤ now then some { r.abortAll with phase := .joining } else none
  | _ => none

/-- No slot is left. -/
def joined {ρ : Type} (r : Roster ρ) : Option (Roster ρ) :=
  match r.phase with
  | .joining => if r.slots.isEmpty then some { r with phase := .disposing } else none
  | _ => none

/-- The handler has been disposed of. -/
def disposed {ρ : Type} (r : Roster ρ) : Option (Roster ρ) :=
  match r.phase with
  | .disposing => some { r with phase := .ended (.ok ()) }
  | _ => none

/-- The consumers that run. -/
def consumers {ρ : Type} (r : Roster ρ) : List ρ :=
  r.slots.filterMap fun
    | .running consumer => some consumer
    | _ => none

end Roster

end Leasework.Crew
