import Leasework.Lease.Keeper
import Leasework.Queue.Call
import Leasework.Work.Board

/-!
# `Leasework.Plant`: what the parties share

The plant is the clock, the stores, the boards and the keepers of leases. Calls and
keepers make their steps on it, one at a time; whoever owns a call says whether it has
been canceled.

A keeper is known by its number. Its owner may *collect* it once it has ended, or
*leave* it: then it stops by itself and disappears.
-/

set_option autoImplicit false

namespace Leasework

/-- A keeper in the plant. -/
structure KeeperEntry where
  /-- Its number. -/
  number : Nat
  /-- The way to the store of its message. -/
  handle : Queue.Handle
  /-- The delivery whose lease it renews. -/
  delivery : Queue.Delivery
  /-- The keeper. -/
  keeper : Lease.Keeper Queue.Call
  /-- Whether its owner has left it. -/
  isLeft : Bool
deriving DecidableEq, Repr

/-- What the parties share. -/
structure Plant where
  /-- The clock, in nanoseconds. -/
  now : Nat
  /-- The stores. -/
  stores : List Queue.Store
  /-- The boards. -/
  boards : List Work.Board
  /-- The keepers. -/
  keepers : List KeeperEntry
  /-- How many keepers there have been. -/
  numbered : Nat
deriving DecidableEq, Repr

namespace Plant

/-- A plant with empty stores at the beginning of time. -/
def start (stores : List Queue.Store) : Plant := ⟨0, stores, [], [], 0⟩

/-- Changes a board. -/
def onBoard (p : Plant) (board : Nat) (change : Work.Board → Work.Board) : Plant :=
  { p with boards := p.boards.modify board change }

/-- Adds a board with nothing on it, and says where it is. -/
def addBoard (p : Plant) : Plant × Nat :=
  ({ p with boards := p.boards ++ [.blank] }, p.boards.length)

/-- Changes a store. -/
def onStore (p : Plant) (store : Nat) (change : Queue.Store → Queue.Store) : Plant :=
  { p with stores := p.stores.modify store change }

/-- The name of a store. -/
def storeName (p : Plant) (store : Nat) : String := (p.stores[store]?.map (·.name)).getD ""

/-! ### Calls -/

/-- Makes a step of a call. -/
def stepCall (p : Plant) (canceled : Bool) (c : Queue.Call) (move : Queue.CallMove) :
    Option (Plant × Queue.Progress) := do
  let s ← p.stores[c.handle.store]?
  let (s, progress) ← c.step canceled p.now s move
  some ({ p with stores := p.stores.set c.handle.store s }, progress)

/-- A step of a call that is possible now. -/
def nextCallMove? (p : Plant) (canceled : Bool) (c : Queue.Call) : Option Queue.CallMove := do
  let s ← p.stores[c.handle.store]?
  c.next? canceled p.now s

/-! ### Keepers -/

/-- Starts a keeper, and says its number. -/
def startKeeper (p : Plant) (handle : Queue.Handle) (delivery : Queue.Delivery) (period : Nat) :
    Plant × Nat :=
  ({ p with
      keepers := p.keepers ++ [⟨p.numbered, handle, delivery, .start period p.now, false⟩]
      numbered := p.numbered + 1 }, p.numbered)

/-- The keeper of a number. -/
def keeper? (p : Plant) (number : Nat) : Option KeeperEntry :=
  p.keepers.find? fun e => e.number = number

/-- Changes the keeper of a number. -/
def onKeeper (p : Plant) (number : Nat) (change : KeeperEntry → KeeperEntry) : Plant :=
  { p with keepers := p.keepers.map fun e => if e.number = number then change e else e }

/-- Tells a keeper to stop. -/
def stopKeeper (p : Plant) (number : Nat) : Plant :=
  p.onKeeper number fun e => { e with keeper := e.keeper.stop }

/-- Takes away the keepers that have ended and been left. -/
def sweepKeepers (p : Plant) : Plant :=
  { p with keepers := p.keepers.filter fun e => !(e.isLeft && e.keeper.hasEnded) }

/-- Leaves a keeper: it stops, and nobody collects it. -/
def leaveKeeper (p : Plant) (number : Nat) : Plant :=
  sweepKeepers <| p.onKeeper number fun e => { e with keeper := e.keeper.stop, isLeft := true }

/-- Takes away a keeper that has ended, and says what it has done. -/
def collectKeeper? (p : Plant) (number : Nat) : Option (Plant × Lease.Keeper Queue.Call) := do
  let e ← p.keeper? number
  if e.keeper.hasEnded then
    some ({ p with keepers := p.keepers.filter fun e => e.number ≠ number }, e.keeper)
  else none

/-- Goes on with the renewal of a keeper. -/
def renew? (p : Plant) (e : KeeperEntry) (k : Lease.Keeper Queue.Call) (call : Queue.Call) :
    Option Plant := do
  let (p, progress) ← p.stepCall false call .go
  let k := match progress with
    | .going call => k.proceed call
    | .ended (.ok _) => k.finish true
    | .ended (.error _) => k.finish false
  some (p.onKeeper e.number fun e => { e with keeper := k })

/-- Makes a step of a keeper: it ends, begins a renewal that is due, or goes on with one. -/
def stepKeeper (p : Plant) (number : Nat) : Option Plant := do
  let e ← p.keeper? number
  match e.keeper.phase with
  | .ended => none
  | .renewing _ call => p.renew? e e.keeper call
  | .waiting _ =>
    match e.keeper.end? with
    | some k => some (sweepKeepers (p.onKeeper number fun e => { e with keeper := k }))
    | none =>
      let call := Queue.Call.start e.handle (.renew e.delivery)
      let k ← e.keeper.begin? p.now call
      p.renew? e k call

/-- Whether a keeper can make a step now. -/
def canStepKeeper (p : Plant) (e : KeeperEntry) : Bool :=
  match e.keeper.phase with
  | .ended => false
  | .renewing _ call => (p.nextCallMove? false call).isSome
  | .waiting due => e.keeper.stopped || due ≤ p.now

/-- The moment at which a keeper wakes up by itself. -/
def keeperTimer? (e : KeeperEntry) : Option Nat :=
  match e.keeper.phase with
  | .ended => none
  | .renewing _ call => call.timer?
  | .waiting due => some due

end Plant

end Leasework
