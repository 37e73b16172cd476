import Leasework.Queue.Call
import Leasework.Span

/-!
# `Leasework.Lease.Keeper`: renewing a lease in the background

A keeper renews the lease of one message at a steady period. The first renewal is due
one period after the start. When a renewal begins at most five milliseconds late the
next one is due one period after this one was due, and otherwise one period after it
began.

A renewal runs to its end once it has begun, with all the rests it takes. Being told to
stop is noticed before the next one, and wins over a renewal that is due. Failed
renewals are counted and change nothing else. Both counters have 32 bits, and begin
again at zero when they are full.

The keeper does not say how a renewal is made: `κ` stands for a renewal that is going
on, and its end is reported by `finish`.
-/

set_option autoImplicit false

namespace Leasework.Lease

/-- Where a keeper is between two steps. -/
inductive KeeperPhase (κ : Type) where
  /-- The next renewal is due at a moment. -/
  | waiting (due : Nat)
  /-- A renewal is going on; the next one is due at a moment. -/
  | renewing (nextDue : Nat) (call : κ)
  /-- The keeper has stopped. -/
  | ended
deriving DecidableEq, Repr

/-- The renewals of one message. -/
structure Keeper (κ : Type) where
  /-- The time between two renewals. -/
  period : Nat
  /-- Whether the keeper has been told to stop. -/
  stopped : Bool
  /-- Where the keeper is. -/
  phase : KeeperPhase κ
  /-- Renewals that succeeded. -/
  renewed : UInt32
  /-- Renewals that failed. -/
  failed : UInt32
deriving DecidableEq, Repr

/-- How late a renewal may begin without moving the next one. -/
def tolerance : Nat := 5 * nanosPerMilli

/-- When the renewal after the one that was due at `due` and begins now is due. -/
def nextDue (period due now : Nat) : Nat :=
  if due + tolerance < now then now + period else due + period

namespace Keeper

/-- A keeper that starts now. Without a period there is nothing to keep. -/
def start {κ : Type} (period now : Nat) : Keeper κ :=
  ⟨period, false, if period = 0 then .ended else .waiting (now + period), 0, 0⟩

/-- Tells a keeper to stop. -/
def stop {κ : Type} (k : Keeper κ) : Keeper κ := { k with stopped := true }

/-- Whether a keeper has stopped. -/
def hasEnded {κ : Type} (k : Keeper κ) : Bool :=
  match k.phase with
  | .ended => true
  | _ => false

/-- Ends a keeper that has been told to stop, if no renewal is going on. -/
def end? {κ : Type} (k : Keeper κ) : Option (Keeper κ) :=
  match k.phase with
  | .waiting _ => if k.stopped then some { k with phase := .ended } else none
  | _ => none

/-- Begins a renewal that is due. -/
def begin? {κ : Type} (now : Nat) (call : κ) (k : Keeper κ) : Option (Keeper κ) :=
  match k.phase with
  | .waiting due =>
    if k.stopped then none
    else if due ≤ now then some { k with phase := .renewing (nextDue k.period due now) call }
    else none
  | _ => none

/-- Goes on with a renewal. -/
def proceed {κ : Type} (call : κ) (k : Keeper κ) : Keeper κ :=
  match k.phase with
  | .renewing due _ => { k with phase := .renewing due call }
  | _ => k

/-- Takes note of how a renewal ended. -/
def finish {κ : Type} (succeeded : Bool) (k : Keeper κ) : Keeper κ :=
  match k.phase with
  | .renewing due _ =>
    if succeeded then { k with phase := .waiting due, renewed := k.renewed + 1 }
    else { k with phase := .waiting due, failed := k.failed + 1 }
  | _ => k

end Keeper

end Leasework.Lease
