import Leasework.Proofs.Broker.Batches
import Leasework.Proofs.Polling.Batches

/-!
# `Leasework.Proofs.Queue.Waits`: waiting for a batch, whatever the queue

The queue in memory is told when a message comes, the polling queue asks again and again, and the
broker is asked for expired entries before new ones. `promised` says that all three keep the same
promise, and that the polling service is never asked for more than it gives out at once.
-/

set_option autoImplicit false

namespace Leasework.Queue

open Polling (Session)

/-- Every queue keeps the promise of a wait for a batch, of however many messages and whenever it
is canceled. Nothing is assumed about the store that a wait in memory finds. Of the polling service
and of the broker it is assumed that they give out no more messages than they are asked for. -/
theorem promised (most : Nat) :
    (∀ {handle : Handle} {canceled : Bool} {call : Call} {now : Nat} {s s' : Store}
        {move : CallMove} {result : Except Failure Reply},
      (Call.start handle (.take most)).Leads canceled call →
      call.step canceled now s move = some (s', .ended result) →
      ∃ answer : Except Failure (List Delivery), result = answer.map .batch ∧
        KeepsPromise (atLeastOne most) canceled answer) ∧
    (∀ {client : Polling.Client} {cancelAt : Option Nat} {notices : Nat → Notice} {fuel : Nat}
        {s s' : Session} {answer : Except Failure (List Polling.Message)},
      s.GivesOut (min (atLeastOne most) 10) →
      client.waitBatch most cancelAt notices fuel s = (s', some answer) →
      KeepsPromise (min (atLeastOne most) 10) (canceledBy cancelAt s'.now) answer ∧
        ∀ r ∈ s'.requests, r ∈ s.requests ∨ ∃ n, 1 ≤ n ∧ n ≤ 10 ∧
          r.2 = .receive client.url n client.leaseSeconds.toNat) ∧
    (∀ {client : Broker.Client} {canceled : Bool} {r : Broker.Receiver}
        {answer : Except Failure (List Broker.Entry)},
      (Broker.Receiver.start client most).Leads canceled r → r.phase = .ended answer →
      KeepsPromise (atLeastOne most) canceled answer) := by
  refine ⟨fun leads made => leads.keepsPromise made, fun within h => ?_,
    fun leads ended => leads.keepsPromise ended⟩
  obtain ⟨hrequests, kept⟩ := Polling.Client.keepsPromise within h
  obtain ⟨hpos, hmost, -⟩ := Polling.Client.askedFor_bounds most
  refine ⟨kept, fun r hr => ?_⟩
  exact (hrequests r hr).imp id fun hreceive => ⟨_, hpos, hmost, hreceive⟩

/-- A store with two messages to deliver. -/
def twoVisible : Store :=
  { Store.empty "requests" 5000000000 with
    visible := [⟨1, "a", 0⟩, ⟨2, "b", 0⟩]
    numbered := 2 }

/-- A polling service that gives out a message without a handle, which cannot be kept, and then one
with a handle. -/
def lateMessage : Session :=
  .start
    [⟨0, .ok ⟨none, [⟨some "1", none, some "a"⟩]⟩⟩,
      ⟨0, .ok ⟨none, [⟨some "2", some "h", some "b"⟩]⟩⟩]

/-- A broker reads an entry without a body. -/
def bodiless : Broker.Answer :=
  .ok (.array [.array [.bulk "requests", .array [.array [.bulk "1-0", .array []]]]])

/-- A broker reclaims an entry that has been delivered once before. -/
def reclaimedEntry : Broker.Answer :=
  .ok (.array [.array [.bulk "0-1", .integer 2, .bulk "a"]])

/-- A receiver reads an entry without a body, acknowledges it, finds that it has nothing, and
reclaims an entry when it tries again. -/
theorem leads_lateEntry : ∃ r,
    (Broker.Receiver.start ⟨"requests", "workers", "c", 60, .default⟩ 0).Leads false r ∧
      r.phase = .ended (.ok [⟨"0-1", 2, "a"⟩]) := by
  have begun := (Broker.Receiver.Leads.here
    (r := .start ⟨"requests", "workers", "c", 60, .default⟩ 0)).stepped (by trivial)
    (rfl : Broker.Receiver.step false 0 .empty _ .begin = some (_, _))
  have unclaimed := begun.stepped (by rintro _ ⟨⟩ _ ⟨⟩; decide)
    (rfl : Broker.Receiver.step false 0 .empty _ (.answer (.ok (.array []))) = some (_, _))
  have connected := unclaimed.stepped (by trivial)
    (rfl : Broker.Receiver.step false 0 .empty _ (.connected (.ok ())) = some (_, _))
  have read := connected.stepped (by rintro _ ⟨⟩ _ ⟨⟩; decide)
    (rfl : Broker.Receiver.step false 0 .empty _ (.answer bodiless) = some (_, _))
  have acknowledged := read.stepped (by rintro _ ⟨⟩; trivial)
    (rfl : Broker.Receiver.step false 0 .empty _ (.answer (.ok (.integer 1))) = some (_, _))
  have again := acknowledged.stepped (by trivial)
    (rfl : Broker.Receiver.step false 0 .empty _ .begin = some (_, _))
  have reclaimed := again.stepped (by rintro _ ⟨⟩ _ ⟨⟩; decide)
    (rfl : Broker.Receiver.step false 0 .empty _ (.answer reclaimedEntry) = some (_, _))
  exact ⟨_, reclaimed, rfl⟩

/-- Who wants no message at all waits for one: a store delivers the first of two, the polling
service one that can be kept, and the broker one that has a body. -/
theorem promised_noneWanted :
    (∃ s', (Call.start ⟨0, .default⟩ (.take 0)).step false 7 twoVisible .go
        = some (s', .ended (.ok (.batch [⟨0, "requests-1", "a"⟩]))) ∧
      ∃ answer : Except Failure (List Delivery),
        .ok (.batch [⟨0, "requests-1", "a"⟩]) = answer.map Reply.batch ∧
          KeepsPromise 1 false answer) ∧
    (∃ s', Polling.Client.waitBatch ⟨"requests", "http://queue/requests", 60, 500000000, none⟩ 0
        none (fun _ => .ending) 3 lateMessage = (s', some (.ok [⟨"2", "b", "h"⟩])) ∧
      KeepsPromise 1 false (.ok [(⟨"2", "b", "h"⟩ : Polling.Message)])) ∧
    (∃ r, (Broker.Receiver.start ⟨"requests", "workers", "c", 60, .default⟩ 0).Leads false r ∧
      r.phase = .ended (.ok [⟨"0-1", 2, "a"⟩]) ∧
      KeepsPromise 1 false (.ok [(⟨"0-1", 2, "a"⟩ : Broker.Entry)])) := by
  have delivered : (Call.start ⟨0, .default⟩ (.take 0)).step false 7 twoVisible .go
      = some (_, .ended (.ok (.batch [⟨0, "requests-1", "a"⟩]))) := rfl
  have within : lateMessage.GivesOut (min (atLeastOne 0) 10) := by
    simp [Session.GivesOut, lateMessage, Session.start, atLeastOne]
  have polled : Polling.Client.waitBatch ⟨"requests", "http://queue/requests", 60, 500000000, none⟩
      0 none (fun _ => .ending) 3 lateMessage = (_, some (.ok [⟨"2", "b", "h"⟩])) := rfl
  obtain ⟨r, leads, ended⟩ := leads_lateEntry
  exact ⟨⟨_, delivered, (promised 0).1 .here delivered⟩,
    ⟨_, polled, ((promised 0).2.1 within polled).1⟩,
    ⟨r, leads, ended, (promised 0).2.2 leads ended⟩⟩

end Leasework.Queue
