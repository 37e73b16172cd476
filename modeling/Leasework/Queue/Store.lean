import Leasework.Queue.Failure

/-!
# `Leasework.Queue.Store`: a queue with leases, kept in memory

A message is either *visible*, in delivery order, or *held* by a consumer under the
receipt of one delivery until its lease expires. Expired leases are not watched: every
operation that looks at leases first calls `reclaim`, which puts their messages back to
the front. A returned message goes to the front as well, a new one to the end.

Faults can be injected. A throttle hits the next operation of any kind; the other
faults hit the next operation of their kind.

Time is counted in nanoseconds. Receipts are numbers and no receipt is handed out
twice, so the receipt of an old delivery says nothing about a later one.
-/

set_option autoImplicit false

namespace Leasework.Queue

/-- A message in a store. -/
structure Message where
  /-- Which message of the store it is, from one on. -/
  number : Nat
  /-- What it says. -/
  content : String
  /-- How often it has been delivered. -/
  deliveries : Nat
deriving DecidableEq, Repr

/-- A message that a consumer holds. -/
structure Held where
  /-- The receipt of the delivery. -/
  receipt : Nat
  /-- The message. -/
  message : Message
  /-- When the lease expires. -/
  expiry : Nat
deriving DecidableEq, Repr

/-- What a consumer gets with a message. -/
structure Delivery where
  /-- The receipt of this delivery. -/
  receipt : Nat
  /-- The id of the message. -/
  id : String
  /-- The content of the message. -/
  content : String
deriving DecidableEq, Repr

/-- How often each kind of operation succeeded. -/
structure Tally where
  /-- Messages sent. -/
  sent : Nat
  /-- Deliveries. -/
  received : Nat
  /-- Deliveries of messages that had been delivered before. -/
  redelivered : Nat
  /-- Leases renewed. -/
  renewed : Nat
  /-- Messages given back. -/
  returned : Nat
  /-- Messages deleted. -/
  deleted : Nat
deriving DecidableEq, Repr

/-- Faults that are still to come. -/
structure Faults where
  /-- Operations of any kind that are throttled. -/
  throttles : Nat
  /-- Sends that fail. -/
  sends : Nat
  /-- Deletions that fail. -/
  deletes : Nat
  /-- Renewals that fail. -/
  renewals : Nat
deriving DecidableEq, Repr

/-- A kind of injected fault. -/
inductive FaultKind where
  /-- The next operation is throttled. -/
  | throttle
  /-- The next send fails. -/
  | send
  /-- The next deletion fails. -/
  | delete
  /-- The next renewal fails. -/
  | renewal
deriving DecidableEq, Repr

/-- Adds faults of a kind. -/
def Faults.add (f : Faults) (kind : FaultKind) (count : Nat) : Faults :=
  match kind with
  | .throttle => { f with throttles := f.throttles + count }
  | .send => { f with sends := f.sends + count }
  | .delete => { f with deletes := f.deletes + count }
  | .renewal => { f with renewals := f.renewals + count }

/-- The faults of a kind that are still to come. -/
def Faults.count (f : Faults) : FaultKind → Nat
  | .throttle => f.throttles
  | .send => f.sends
  | .delete => f.deletes
  | .renewal => f.renewals

/-- Uses up one fault of a kind. -/
def Faults.use (f : Faults) (kind : FaultKind) : Faults :=
  match kind with
  | .throttle => { f with throttles := f.throttles - 1 }
  | .send => { f with sends := f.sends - 1 }
  | .delete => { f with deletes := f.deletes - 1 }
  | .renewal => { f with renewals := f.renewals - 1 }

/-- The failure that a fault of a kind brings about. -/
def FaultKind.failure : FaultKind → Failure
  | .throttle => .throttled "injected throttle"
  | .send => .backend "injected send failure"
  | .delete => .backend "injected delete failure"
  | .renewal => .backend "injected renew failure"

/-- A queue with leases. -/
structure Store where
  /-- The name, with which the ids of its messages begin. -/
  name : String
  /-- How long a delivery is held unless it is renewed. -/
  lease : Nat
  /-- The messages to deliver, in order. -/
  visible : List Message
  /-- The messages that consumers hold, in the order of their deliveries. -/
  held : List Held
  /-- How many messages have been numbered. -/
  numbered : Nat
  /-- How many receipts have been handed out. -/
  receipts : Nat
  /-- What has been done so far. -/
  tally : Tally
  /-- Faults that are still to come. -/
  faults : Faults
  /-- How often blocked receivers have been told to look again. -/
  signals : Nat
deriving DecidableEq, Repr

namespace Store

/-- An empty store. -/
def empty (name : String) (lease : Nat) : Store :=
  ⟨name, lease, [], [], 0, 0, ⟨0, 0, 0, 0, 0, 0⟩, ⟨0, 0, 0, 0⟩, 0⟩

/-- The id of a message. -/
def idOf (s : Store) (m : Message) : String := s.name ++ "-" ++ toString m.number

/-! ### Leases -/

/-- Puts every message whose lease has expired back to the front. -/
def reclaim (now : Nat) (s : Store) : Store :=
  let expired := s.held.filter fun h => h.expiry ≤ now
  { s with
    visible := expired.foldl (fun visible h => h.message :: visible) s.visible
    held := s.held.filter fun h => now < h.expiry }

/-- The moment at which the next lease expires. -/
def earliestExpiry? (s : Store) : Option Nat := (s.held.map Held.expiry).min?

/-- The message held under a receipt. -/
def find? (s : Store) (receipt : Nat) : Option Held := s.held.find? fun h => h.receipt = receipt

/-- Ends the lease of a receipt. -/
def dropHeld (s : Store) (receipt : Nat) : Store :=
  { s with held := s.held.filter fun h => h.receipt ≠ receipt }

/-- Sets when the lease of a receipt expires. -/
def setExpiry (s : Store) (receipt expiry : Nat) : Store :=
  { s with
    held := s.held.map fun h => if h.receipt = receipt then { h with expiry := expiry } else h }

/-- Tells blocked receivers to look again. -/
def signal (s : Store) : Store := { s with signals := s.signals + 1 }

/-! ### Faults -/

/-- Injects faults. -/
def inject (s : Store) (kind : FaultKind) (count : Nat) : Store :=
  { s with faults := s.faults.add kind count }

/-- The first of these kinds of faults that is still to come. -/
def fault? (s : Store) (kinds : List FaultKind) : Option FaultKind :=
  kinds.find? fun kind => 0 < s.faults.count kind

/-- Runs an operation unless a fault of one of these kinds hits it first. -/
def guarded {α : Type} (s : Store) (kinds : List FaultKind)
    (operation : Store → Store × Except Failure α) : Store × Except Failure α :=
  match s.fault? kinds with
  | some kind => ({ s with faults := s.faults.use kind }, .error kind.failure)
  | none => operation s

/-- Runs an operation on the message of a delivery, unless its lease is lost. -/
def leased (now : Nat) (d : Delivery) (operation : Store → Held → Store) (s : Store) :
    Store × Except Failure Unit :=
  let s := s.reclaim now
  match s.find? d.receipt with
  | some h => (operation s h, .ok ())
  | none => (s, .error (.leaseLost d.id))

/-! ### Operations -/

/-- Adds a new message to the end. -/
def append (content : String) (s : Store) : Store :=
  { s with
    visible := s.visible ++ [⟨s.numbered + 1, content, 0⟩]
    numbered := s.numbered + 1
    tally := { s.tally with sent := s.tally.sent + 1 } }

/-- Sends a message. -/
def send (content : String) (s : Store) : Store × Except Failure Unit :=
  s.guarded [.throttle, .send] fun s => ((s.append content).signal, .ok ())

/-- The delivery of a message under the next receipt. -/
def deliveryOf (s : Store) (m : Message) : Delivery := ⟨s.receipts, s.idOf m, m.content⟩

/-- Delivers a message that is no longer visible. -/
def deliver (now : Nat) (m : Message) (s : Store) : Store :=
  { s with
    held := s.held ++ [⟨s.receipts, { m with deliveries := m.deliveries + 1 }, now + s.lease⟩]
    receipts := s.receipts + 1
    tally :=
      { s.tally with
        received := s.tally.received + 1
        redelivered := s.tally.redelivered + if 0 < m.deliveries then 1 else 0 } }

/-- Delivers messages in order. -/
def deliverAll (now : Nat) : List Message → Store → Store × List Delivery
  | [], s => (s, [])
  | m :: rest, s =>
    let (last, deliveries) := deliverAll now rest (s.deliver now m)
    (last, s.deliveryOf m :: deliveries)

/-- Delivers up to `most` visible messages; without any, `none` is delivered. -/
def takeVisible (most now : Nat) (s : Store) : Store × Option (List Delivery) :=
  let s := s.reclaim now
  match s.visible.take most with
  | [] => (s, none)
  | batch =>
    let (s, deliveries) := deliverAll now batch { s with visible := s.visible.drop most }
    (s, some deliveries)

/-- Asks for messages once. -/
def take (most now : Nat) (s : Store) : Store × Except Failure (Option (List Delivery)) :=
  s.guarded [.throttle] fun s =>
    let (s, deliveries) := s.takeVisible most now
    (s, .ok deliveries)

/-- Renews the lease of a delivery: it lasts a whole lease from now on. -/
def renew (now : Nat) (d : Delivery) (s : Store) : Store × Except Failure Unit :=
  s.guarded [.throttle, .renewal] <| leased now d fun s _ =>
    let s := s.setExpiry d.receipt (now + s.lease)
    { s with tally := { s.tally with renewed := s.tally.renewed + 1 } }

/-- Gives a message back: it is the next to be delivered. -/
def giveBack (now : Nat) (d : Delivery) (s : Store) : Store × Except Failure Unit :=
  s.guarded [.throttle] <| leased now d fun s h =>
    let s := s.dropHeld d.receipt
    signal
      { s with
        visible := h.message :: s.visible
        tally := { s.tally with returned := s.tally.returned + 1 } }

/-- Deletes a message. -/
def delete (now : Nat) (d : Delivery) (s : Store) : Store × Except Failure Unit :=
  s.guarded [.throttle, .delete] <| leased now d fun s _ =>
    let s := s.dropHeld d.receipt
    { s with tally := { s.tally with deleted := s.tally.deleted + 1 } }

/-! ### Small facts -/

/-- What reclaiming leaves held has not expired. -/
theorem held_reclaim (now : Nat) (s : Store) :
    (s.reclaim now).held = s.held.filter fun h => now < h.expiry := rfl

/-- Reclaiming keeps the visible messages behind the reclaimed ones. -/
theorem visible_reclaim (now : Nat) (s : Store) :
    (s.reclaim now).visible
      = ((s.held.filter fun h => h.expiry ≤ now).map Held.message).reverse ++ s.visible := by
  unfold reclaim
  simp only
  generalize s.held.filter (fun h => h.expiry ≤ now) = expired
  generalize s.visible = visible
  induction expired generalizing visible with
  | nil => rfl
  | cons h rest ih => simp [ih]

end Store

end Leasework.Queue
