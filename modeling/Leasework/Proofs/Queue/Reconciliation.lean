import Mathlib.Data.List.Dedup
import Leasework.Proofs.Queue.FirstCome

/-!
# `Leasework.Proofs.Queue.Reconciliation`: how every delivery ends

A store counts its deliveries in six places, but it does not count the leases that run out. What the
record of a run says about them is `lapsed`: an entry that looks at the leases ends all those that
began, or last began anew, at least a lease ago. Sends and injections do not look, nor does an attempt
that a fault has hit, so a lease that has run out may still be held for a while.

`Balanced` compares a store with its record. Its main part is one permutation: the receipts that were
handed out are those that were closed, those that have lapsed and those that are held. Reclaiming moves
receipts from the held to the lapsed ones, a batch adds as many on both sides, and giving back and
deleting move one receipt to the closed ones. Nothing comes back from there, because no receipt is
handed out twice (`Traced`).

`Shuffled.reconciled` is the result.
-/

set_option autoImplicit false

namespace Leasework.Queue

/-! ### What the record says -/

/-- Whether a deed has looked at the leases, and so has ended those that had run out. -/
def Entry.looks (e : Entry) : Bool :=
  match e.deed, e.outcome with
  | .observe, _ => true
  | .inject .., _ | .attempt (.send _), _ => false
  | .attempt _, some (.answered (.error (.throttled _)))
  | .attempt _, some (.answered (.error (.backend _))) => false
  | .attempt _, _ => true

/-- The delivery whose message was given back. -/
def Entry.returnedVia? (e : Entry) : Option Delivery :=
  match e.carriedOut? with
  | some (.giveBack d) => some d
  | _ => none

/-- The deliveries whose messages were given back. -/
def returnedVia (past : List Entry) : List Delivery := past.filterMap Entry.returnedVia?

/-- How often a message has been handed out. -/
def timesHanded (id : String) (past : List Entry) : Nat :=
  ((handedOut past).map Delivery.id).count id

/-- The ids of the messages that have been handed out, each of them once. -/
def idsHanded (past : List Entry) : List String := ((handedOut past).map Delivery.id).dedup

/-- Whether the lease of a receipt has run out by a moment. -/
def ranOut (lease : Nat) (past : List Entry) (now receipt : Nat) : Bool :=
  (lastRefresh? receipt past).any fun t => t + lease ≤ now

/-- The receipts that lapse at a moment, when so many have lapsed before: those that were handed out,
have not been closed, and have run out by now. -/
def lapsing (lease : Nat) (past : List Entry) (gone : List Nat) (now : Nat) : List Nat :=
  ((handedOut past).map Delivery.receipt).filter fun r =>
    r ∉ (closedVia past).map Delivery.receipt ∧ r ∉ gone ∧ ranOut lease past now r

/-- The receipts whose leases have ended because they had run out. -/
def lapsed (lease : Nat) : List Entry → List Nat
  | [] => []
  | e :: past =>
    if e.looks then lapsing lease past (lapsed lease past) e.now ++ lapsed lease past
    else lapsed lease past

section
variable {lease now : Nat} {past : List Entry} {e : Entry} {id : String}

theorem timesHanded_cons (id : String) (e : Entry) (past : List Entry) :
    timesHanded id (e :: past) = (e.handedOut.map Delivery.id).count id + timesHanded id past := by
  rw [timesHanded, handedOut_cons, List.map_append, List.count_append]
  rfl

theorem lapsed_cons_of_not_looks (h : e.looks = false) :
    lapsed lease (e :: past) = lapsed lease past := by
  rw [lapsed, if_neg (by simp [h])]

/-- What was closed was given back or deleted. -/
theorem closedVia_perm (past : List Entry) :
    (closedVia past).Perm (returnedVia past ++ deletedVia past) := by
  induction past with
  | nil => exact .refl _
  | cons e past ih =>
    cases hcarried : e.carriedOut? with
    | none =>
      simp only [closedVia, returnedVia, deletedVia, List.filterMap_cons, Entry.closedVia?,
        Entry.returnedVia?, Entry.deletedVia?, hcarried]
      exact ih
    | some request =>
      simp only [closedVia, returnedVia, deletedVia, List.filterMap_cons, Entry.closedVia?,
        Entry.returnedVia?, Entry.deletedVia?, hcarried]
      cases request with
      | giveBack d => exact ih.cons d
      | delete d => exact (ih.cons d).trans List.perm_middle.symm
      | _ => exact ih

end

/-! ### Batches on record -/

/-- A batch names its messages. -/
theorem Store.map_id_deliveriesOf (s : Store) (batch : List Message) :
    (s.deliveriesOf batch).map Delivery.id = batch.map s.idOf := by
  refine List.ext_getElem (by simp [deliveriesOf]) fun i h₁ h₂ => ?_
  simp [deliveriesOf]

/-- A batch has as many first deliveries as messages that have not been delivered before. -/
theorem Queued.length_firstDelivered_takeBatch {past : List Entry} {s : Store} (o : Orderly s)
    (q : Queued past s) (now most : Nat) :
    (firstDelivered (⟨now, .attempt (.take most), some (.answered (.ok (.batch
        (s.deliveriesOf (s.batch most)))))⟩ :: past)).length
      = (firstDelivered past).length + (s.batch most).countP fun m => m.deliveries = 0 := by
  have htickets : (s.deliveriesOf (s.batch most)).map Delivery.ticket
      = (s.batch most).map s.ticketOf := Store.map_ticket_deliveriesOf s _
  rw [firstDelivered, delivered_cons, List.map_append]
  show ((_ ++ (s.deliveriesOf (s.batch most)).map Delivery.ticket).eraseDups).length = _
  rw [htickets, List.eraseDups_append, q.batch_fresh o, List.length_append, List.length_map,
    List.countP_eq_length_filter]
  rfl

/-- Taking a batch hands out every message of it once more. A message is known by its number there, as it
is by its id in the record. -/
theorem Store.timesHanded_takeBatch (s : Store) (now most : Nat) (m : Message)
    (past : List Entry) :
    timesHanded (s.idOf m) (⟨now, .attempt (.take most), some (.answered (.ok (.batch
        (s.deliveriesOf (s.batch most)))))⟩ :: past)
      = ((s.batch most).map Message.number).count m.number + timesHanded (s.idOf m) past := by
  rw [timesHanded_cons]
  refine congrArg (· + _) ?_
  show ((s.deliveriesOf (s.batch most)).map Delivery.id).count (s.idOf m) = _
  rw [Store.map_id_deliveriesOf, List.count, List.count, List.countP_map, List.countP_map]
  refine List.countP_congr fun m' _ => ?_
  simp [Store.idOf_inj]

/-- Every message of a batch has been delivered before, or it has not. -/
theorem countP_again_add_countP_fresh (batch : List Message) :
    (batch.countP fun m => 0 < m.deliveries) + (batch.countP fun m => m.deliveries = 0)
      = batch.length := by
  rw [List.length_eq_countP_add_countP fun m : Message => decide (0 < m.deliveries)]
  refine congrArg (_ + ·) (List.countP_congr fun m _ => ?_)
  simp [Nat.pos_iff_ne_zero]

/-! ### A store and its record -/

/-- The numbers of a store agree with its record:

- `deliveries`: a message has been delivered as often as it was handed out;
- `received`: every delivery has been counted;
- `redelivered`: and the first one of every message has not been counted as another one;
- `returned`, `deleted`: so have the messages that were given back and those that were deleted;
- `ends`: every receipt has been closed, has lapsed, or is held. -/
structure Balanced (past : List Entry) (gone : List Nat) (s : Store) : Prop where
  deliveries : ∀ m ∈ s.messages, m.deliveries = timesHanded (s.idOf m) past
  received : s.tally.received = (handedOut past).length
  redelivered : s.tally.redelivered + (firstDelivered past).length = (handedOut past).length
  returned : s.tally.returned = (returnedVia past).length
  deleted : s.tally.deleted = (deletedVia past).length
  ends : ((handedOut past).map Delivery.receipt).Perm
    ((closedVia past).map Delivery.receipt ++ (gone ++ s.held.map Held.receipt))

namespace Balanced
variable {lease now : Nat} {past : List Entry} {gone : List Nat} {s s' : Store} {e : Entry}

theorem empty (name : String) (lease : Nat) : Balanced [] [] (.empty name lease) where
  deliveries := List.forall_mem_nil _
  received := rfl
  redelivered := rfl
  returned := rfl
  deleted := rfl
  ends := .refl _

/-- A store that has its messages in other places, and the same receipts in use. -/
theorem of_perm (b : Balanced past gone s) (hname : s'.name = s.name)
    (hmessages : s'.messages.Perm s.messages)
    (hreceived : s'.tally.received = s.tally.received)
    (hredelivered : s'.tally.redelivered = s.tally.redelivered)
    (hreturned : s'.tally.returned = s.tally.returned)
    (hdeleted : s'.tally.deleted = s.tally.deleted)
    (hheld : (s'.held.map Held.receipt).Perm (s.held.map Held.receipt)) :
    Balanced past gone s' where
  deliveries m hm := by
    rw [Store.idOf, hname]
    exact b.deliveries m (hmessages.mem_iff.mp hm)
  received := hreceived.trans b.received
  redelivered := by
    rw [hredelivered]
    exact b.redelivered
  returned := hreturned.trans b.returned
  deleted := hdeleted.trans b.deleted
  ends := b.ends.trans ((hheld.symm.append_left gone).append_left _)

theorem redelivered_cons_of_quiet (b : Balanced past gone s) (hnone : e.handedOut = []) :
    s.tally.redelivered + (firstDelivered (e :: past)).length = (handedOut (e :: past)).length := by
  rw [firstDelivered_cons_of_quiet hnone, handedOut_cons, hnone]
  exact b.redelivered

/-- An entry that hands out, gives back and deletes nothing. -/
theorem quiet (b : Balanced past gone s) (hnone : e.handedOut = [])
    (hreturned : e.returnedVia? = none) (hdeleted : e.deletedVia? = none)
    (hclosed : e.closedVia? = none) : Balanced (e :: past) gone s where
  deliveries m hm := by
    rw [timesHanded_cons, hnone]
    simpa using b.deliveries m hm
  received := by
    rw [handedOut_cons, hnone]
    exact b.received
  redelivered := b.redelivered_cons_of_quiet hnone
  returned := by
    rw [returnedVia, List.filterMap_cons_none hreturned]
    exact b.returned
  deleted := by
    rw [deletedVia, List.filterMap_cons_none hdeleted]
    exact b.deleted
  ends := by
    rw [handedOut_cons, closedVia, List.filterMap_cons_none hclosed, hnone]
    exact b.ends

theorem withHeld {held : List Held} (b : Balanced past gone s) (same : held.Perm s.held) :
    Balanced past gone (s.withHeld held) :=
  b.of_perm rfl ((same.map _).append_left _) rfl rfl rfl rfl (same.map _)

/-- What lapses is what is held and has expired. -/
theorem lapsing_perm (a : Accounted lease past s now) (t : Traced past s)
    (b : Balanced past gone s) :
    (lapsing lease past gone now).Perm
      ((s.held.filter fun h => h.expiry ≤ now).map Held.receipt) := by
  have hnodup := b.ends.nodup_iff.mp t.receipts_nodup
  rw [List.nodup_append, List.nodup_append] at hnodup
  obtain ⟨-, ⟨-, -, hgone⟩, hclosed⟩ := hnodup
  refine (b.ends.filter _).trans ?_
  -- Closed receipts do not lapse, and those that have lapsed do not lapse again.
  rw [List.filter_append, List.filter_append, List.filter_eq_nil_iff.mpr fun r hr => ?closed,
    List.filter_eq_nil_iff.mpr fun r hr => ?gone, List.nil_append, List.nil_append, List.filter_map]
  case closed =>
    simp only [decide_eq_true_eq]
    exact fun h => h.1 hr
  case gone =>
    simp only [decide_eq_true_eq]
    exact fun h => h.2.1 hr
  refine List.Perm.of_eq (congrArg (List.map Held.receipt) (List.filter_congr fun h hh => ?_))
  obtain ⟨-, t, ht, hexpiry⟩ := a.held h hh
  have hmem : h.receipt ∈ s.held.map Held.receipt := List.mem_map_of_mem hh
  have hopen : h.receipt ∉ (closedVia past).map Delivery.receipt := fun hr =>
    hclosed _ hr _ (List.mem_append_right _ hmem) rfl
  have hlasted : h.receipt ∉ gone := fun hr => hgone _ hr _ hmem rfl
  have hran : ranOut lease past now h.receipt = true ↔ h.expiry ≤ now := by
    simp [ranOut, ht, hexpiry]
  exact decide_eq_decide.mpr
    ⟨fun hlapses => hran.mp hlapses.2.2, fun hexpired => ⟨hopen, hlasted, hran.mpr hexpired⟩⟩

/-- Reclaiming ends the leases that have run out. -/
theorem reclaim (a : Accounted lease past s now) (t : Traced past s) (b : Balanced past gone s) :
    Balanced past (lapsing lease past gone now ++ gone) (s.reclaim now) := by
  have hheld := (Store.held_perm_reclaim now s).map Held.receipt
  rw [List.map_append] at hheld
  refine { b with deliveries := fun m hm => ?_, ends := ?_ }
  · exact b.deliveries m ((Store.messages_reclaim now s).mem_iff.mp hm)
  · refine b.ends.trans (List.Perm.append_left _ ?_)
    rw [List.append_assoc]
    refine (hheld.symm.append_left gone).trans ?_
    refine (List.perm_append_comm_assoc _ _ _).trans ?_
    exact (b.lapsing_perm a t).symm.append_right _

/-- A new message has not been handed out. -/
theorem append {content : String} (f : Faithful past s) (q : Queued past s)
    (b : Balanced past gone s) :
    Balanced (⟨now, .attempt (.send content), some (.answered (.ok .done))⟩ :: past) gone
      (s.append content).signal := by
  have hnew : timesHanded (s.idOf ⟨s.numbered + 1, content, 0⟩) past = 0 := by
    refine List.count_eq_zero.mpr fun hmem => ?_
    obtain ⟨d, hd, hid⟩ := List.mem_map.mp hmem
    -- Whatever its content was, the message of that delivery would have the next number.
    have hfresh := @Queued.next_undelivered past s d.content f q
    refine hfresh (List.mem_map.mpr ⟨d, ?_, ?_⟩)
    · unfold handedOut at hd
      unfold delivered
      simpa using hd
    · exact Prod.ext hid rfl
  refine Balanced.quiet { b with deliveries := fun m hm => ?_ } rfl rfl rfl rfl
  have hm : m ∈ s.visible ++ [⟨s.numbered + 1, content, 0⟩] ++ s.held.map Held.message := hm
  rw [List.append_assoc, List.mem_append, List.mem_append, List.mem_singleton] at hm
  rcases hm with hm | rfl | hm
  · exact b.deliveries m (List.mem_append_left _ hm)
  · exact hnew.symm
  · exact b.deliveries m (List.mem_append_right _ hm)

/-- The messages of a batch have been handed out once more, and no others. -/
theorem deliveries_takeBatch (o : Orderly s) (b : Balanced past gone s) (now most : Nat)
    {m : Message} (hm : m ∈ ((s.withoutBatch most).handOver now (s.batch most)).messages) :
    m.deliveries = ((s.batch most).map Message.number).count m.number
      + timesHanded (s.idOf m) past := by
  have hnumbers := o.numbers_batch most
  have hm : m ∈ (s.withoutBatch most).visible
      ++ (s.held ++ (s.withoutBatch most).leasesOf now (s.batch most)).map Held.message := hm
  rw [List.map_append, ← List.append_assoc] at hm
  rcases List.mem_append.mp hm with hm | hm
  · have hnot : m.number ∉ (s.batch most).map Message.number := fun hmem =>
      List.disjoint_of_nodup_append hnumbers hmem (List.mem_map_of_mem hm)
    have hmessage : m ∈ s.messages := by
      rw [Store.messages, s.visible_eq_batch most, List.append_assoc]
      exact List.mem_append_right _ hm
    rw [List.count_eq_zero.mpr hnot, Nat.zero_add]
    exact b.deliveries m hmessage
  · obtain ⟨h, hh, rfl⟩ := List.mem_map.mp hm
    obtain ⟨i, hi, rfl⟩ := List.mem_mapIdx.mp hh
    have hmem : (s.batch most)[i] ∈ s.batch most := List.getElem_mem hi
    have hone := List.count_eq_one_of_mem (List.nodup_append.mp hnumbers).1
      (List.mem_map_of_mem (f := Message.number) hmem)
    have hold := b.deliveries _ (List.mem_append_left _ (List.mem_of_mem_take hmem))
    show (s.batch most)[i].deliveries + 1
      = ((s.batch most).map Message.number).count (s.batch most)[i].number
        + timesHanded (s.idOf (s.batch most)[i]) past
    omega

/-- A batch is handed out under the next receipts. -/
theorem takeBatch {most : Nat} (o : Orderly s) (q : Queued past s) (b : Balanced past gone s) :
    Balanced
      (⟨now, .attempt (.take most), some (.answered (.ok (.batch
        (s.deliveriesOf (s.batch most)))))⟩ :: past) gone
      ((s.withoutBatch most).handOver now (s.batch most)) := by
  have hout : handedOut (⟨now, .attempt (.take most), some (.answered (.ok (.batch
      (s.deliveriesOf (s.batch most)))))⟩ :: past)
        = s.deliveriesOf (s.batch most) ++ handedOut past := handedOut_cons _ _
  have hlength : (s.deliveriesOf (s.batch most)).length = (s.batch most).length := by
    simp [Store.deliveriesOf]
  refine
    { deliveries := fun m hm => ?_
      received := ?_
      redelivered := ?_
      returned := b.returned
      deleted := b.deleted
      ends := ?_ }
  · show m.deliveries = timesHanded (s.idOf m) _
    rw [s.timesHanded_takeBatch]
    exact b.deliveries_takeBatch o now most hm
  · rw [hout, List.length_append, hlength, Nat.add_comm]
    exact congrArg (· + _) b.received
  · have hfirst := q.length_firstDelivered_takeBatch o now most
    have hbefore := b.redelivered
    have hsplit := countP_again_add_countP_fresh (s.batch most)
    rw [hout, List.length_append, hlength, hfirst]
    show s.tally.redelivered + (s.batch most).countP _ + _ = _
    omega
  · have hnew := Store.map_receipt_leasesOf now (s.withoutBatch most) (s.batch most)
    rw [hout, List.map_append, Store.map_receipt_deliveriesOf]
    show List.Perm _ ((closedVia past).map Delivery.receipt
      ++ (gone ++ (s.held ++ (s.withoutBatch most).leasesOf now (s.batch most)).map Held.receipt))
    rw [List.map_append, hnew, ← List.append_assoc gone, ← List.append_assoc]
    exact List.perm_append_comm.trans (b.ends.append_right _)

/-- A renewal delivers and ends nothing. -/
theorem afterRenewal (now receipt : Nat) (b : Balanced past gone s) :
    Balanced past gone (s.afterRenewal now receipt) := by
  have hreceipts := Store.map_held_setExpiry s receipt (now + s.lease) Held.receipt fun _ _ => rfl
  have hmessages := Store.map_held_setExpiry s receipt (now + s.lease) Held.message fun _ _ => rfl
  refine b.of_perm rfl ?_ rfl rfl rfl rfl (.of_eq hreceipts)
  show (s.visible ++ (s.setExpiry receipt (now + s.lease)).held.map Held.message).Perm _
  rw [hmessages]
  exact .refl _

/-- A receipt that is closed is no longer held. -/
theorem ends_close {d : Delivery} {h : Held} (o : Orderly s) (b : Balanced past gone s)
    (found : s.find? d.receipt = some h) :
    ((handedOut past).map Delivery.receipt).Perm
      ((d :: closedVia past).map Delivery.receipt
        ++ (gone ++ (s.dropHeld d.receipt).held.map Held.receipt)) := by
  have hheld := (Store.held_perm_dropHeld o.receipts_nodup found).map Held.receipt
  rw [List.map_cons, (Store.mem_of_find? found).2] at hheld
  have hgone := (hheld.append_left gone).trans List.perm_middle
  exact b.ends.trans ((hgone.append_left _).trans List.perm_middle)

theorem afterReturn {d : Delivery} {h : Held} (o : Orderly s) (b : Balanced past gone s)
    (found : s.find? d.receipt = some h) :
    Balanced (⟨now, .attempt (.giveBack d), some (.answered (.ok .done))⟩ :: past) gone
      (s.afterReturn h) := by
  have hends := b.ends_close o found
  obtain ⟨-, hr⟩ := Store.mem_of_find? found
  have hheld := Store.held_perm_dropHeld o.receipts_nodup found
  refine
    { b with
      deliveries := fun m hm => ?_
      redelivered := b.redelivered_cons_of_quiet rfl
      returned := ?_
      ends := ?_ }
  · refine b.deliveries m ?_
    have hm : m ∈ h.message :: s.visible ++ (s.dropHeld h.receipt).held.map Held.message := hm
    rw [List.cons_append, ← List.perm_middle.mem_iff, ← List.map_cons, hr] at hm
    rcases List.mem_append.mp hm with hm | hm
    · exact List.mem_append_left _ hm
    · exact List.mem_append_right _ ((hheld.map _).mem_iff.mpr hm)
  · show s.tally.returned + 1 = (d :: returnedVia past).length
    rw [b.returned, List.length_cons]
  · show (_ : List Nat).Perm (_ ++ (gone ++ (s.dropHeld h.receipt).held.map Held.receipt))
    rw [hr]
    exact hends

theorem afterDeletion {d : Delivery} {h : Held} (o : Orderly s) (b : Balanced past gone s)
    (found : s.find? d.receipt = some h) :
    Balanced (⟨now, .attempt (.delete d), some (.answered (.ok .done))⟩ :: past) gone
      (s.afterDeletion d.receipt) := by
  refine
    { b with
      deliveries := fun m hm => ?_
      redelivered := b.redelivered_cons_of_quiet rfl
      deleted := ?_
      ends := b.ends_close o found }
  · refine b.deliveries m ?_
    rcases List.mem_append.mp hm with hm | hm
    · exact List.mem_append_left _ hm
    · exact List.mem_append_right _ ((List.filter_sublist.map _).subset hm)
  · show s.tally.deleted + 1 = (d :: deletedVia past).length
    rw [b.deleted, List.length_cons]

/-- Every step keeps a store in agreement with its record. -/
theorem step {deed : Deed} {outcome : Option Outcome} (o : Orderly s) (t : Traced past s)
    (f : Faithful past s) (a : Accounted lease past s now) (q : Queued past s)
    (b : Balanced past (lapsed lease past) s) (st : Store.Step now s deed s' outcome) :
    Balanced (⟨now, deed, outcome⟩ :: past) (lapsed lease (⟨now, deed, outcome⟩ :: past)) s' := by
  have or := o.reclaim now
  have qr := q.reclaim now
  have br := b.reclaim a t
  cases st with
  | faulted request kind =>
    have same : Balanced past (lapsed lease past) (s.useFault kind) :=
      b.of_perm rfl (.refl _) rfl rfl rfl rfl (.refl _)
    rw [lapsed_cons_of_not_looks (by cases request <;> cases kind <;> rfl)]
    cases request <;> exact same.quiet rfl rfl rfl rfl
  | injected kind count =>
    have same : Balanced past (lapsed lease past) (s.inject kind count) :=
      b.of_perm rfl (.refl _) rfl rfl rfl rfl (.refl _)
    exact same.quiet rfl rfl rfl rfl
  | sent => exact b.append f q
  | bare => exact br.quiet rfl rfl rfl rfl
  | observed => exact br.quiet rfl rfl rfl rfl
  | lost request d through =>
    cases request with
    | renew | giveBack | delete => exact br.quiet rfl rfl rfl rfl
    | _ => cases through
  | taken => exact br.takeBatch or qr
  | renewed d => exact (br.afterRenewal now d.receipt).quiet rfl rfl rfl rfl
  | returned d h _ found => exact br.afterReturn or found
  | deleted d h _ found => exact br.afterDeletion or found

end Balanced

/-! ### What the numbers of a store say -/

section
variable {name : String} {lease : Nat} {past : List Entry} {s : Store}

/-- In every run a store agrees with its record. -/
theorem Shuffled.balanced (h : Shuffled name lease past s) :
    Balanced past (lapsed lease past) s := by
  induction past generalizing s with
  | nil =>
    cases h
    exact .empty name lease
  | cons e past ih =>
    obtain ⟨s₀, held, before, same, hlater, st⟩ := h.last
    exact ((ih before).withHeld same).step (before.orderly.withHeld same)
      (before.traced.withHeld same) (before.faithful.withHeld same)
      ((before.accounted hlater).withHeld same) (before.queued.withHeld same) st

/-- No two messages that were sent have one id. -/
theorem nodup_ids_ticketsSent (name : String) (past : List Entry) :
    ((ticketsSent name past).map Prod.fst).Nodup := by
  have hids : (ticketsSent name past).map Prod.fst
      = (List.range (contentsSent past).length).map fun i => name ++ "-" ++ toString (i + 1) := by
    refine List.ext_getElem (by simp [ticketsSent]) fun i h₁ h₂ => ?_
    simp [ticketsSent]
  rw [hids]
  refine List.Nodup.map (fun i j hsame => ?_) List.nodup_range
  have hid : (Store.empty name 0).idOf ⟨i + 1, "", 0⟩
      = (Store.empty name 0).idOf ⟨j + 1, "", 0⟩ := hsame
  exact Nat.succ.inj (Store.idOf_inj.mp hid)

/-- There are as many first deliveries as messages that have been handed out. -/
theorem Queued.length_idsHanded (q : Queued past s) :
    (idsHanded past).length = (firstDelivered past).length := by
  have hfirst : ((firstDelivered past).map Prod.fst).Nodup := by
    have hall := nodup_ids_ticketsSent s.name past
    rw [← q.order, List.map_append] at hall
    exact (List.nodup_append.mp hall).1
  have hmap : ((firstDelivered past).map Prod.fst).length = (firstDelivered past).length :=
    List.length_map _
  rw [← hmap]
  refine ((List.perm_ext_iff_of_nodup (List.nodup_dedup _) hfirst).mpr fun id => ?_).length_eq
  simp only [List.mem_dedup, List.mem_map, firstDelivered, List.mem_eraseDups, handedOut, delivered,
    List.mem_flatMap, List.mem_reverse]
  constructor
  · rintro ⟨d, hd, rfl⟩
    exact ⟨d.ticket, ⟨d, hd, rfl⟩, rfl⟩
  · rintro ⟨_, ⟨d, hd, rfl⟩, rfl⟩
    exact ⟨d, hd, rfl⟩

/-- The numbers of a store say what has become of its deliveries:

- `deliveries`: a message that is still there has been delivered as often as it was handed out;
- `received`: every message that was handed out is a delivery;
- `distinct`, `redelivered`: for every message one delivery is not a redelivery, and all others are;
- `returned`, `deleted`: messages are given back and deleted through as many deliveries;
- `once`, `ends`: every delivery has a receipt of its own, and of all these receipts each one has been
  given back, has been deleted, is held, or has lapsed;
- `balance`: so the numbers add up. -/
structure Reconciled (lease : Nat) (past : List Entry) (s : Store) : Prop where
  deliveries : ∀ m ∈ s.messages, m.deliveries = timesHanded (s.idOf m) past
  received : s.tally.received = (handedOut past).length
  distinct : (idsHanded past).length ≤ s.tally.received
  redelivered : s.tally.redelivered = s.tally.received - (idsHanded past).length
  returned : s.tally.returned = (returnedVia past).length
  deleted : s.tally.deleted = (deletedVia past).length
  once : ((handedOut past).map Delivery.receipt).Nodup
  ends : ((handedOut past).map Delivery.receipt).Perm
    ((returnedVia past).map Delivery.receipt ++ (deletedVia past).map Delivery.receipt
      ++ s.held.map Held.receipt ++ lapsed lease past)
  balance : s.tally.received
    = s.tally.returned + s.tally.deleted + s.held.length + (lapsed lease past).length

/-- In every run of a store, however its leases are ordered and whatever is tried through receipts
that were lost long ago, its numbers say what has become of its deliveries. -/
theorem Shuffled.reconciled (h : Shuffled name lease past s) : Reconciled lease past s := by
  have b := h.balanced
  have hids := h.queued.length_idsHanded
  have hreceived := b.received
  have hredelivered := b.redelivered
  have hends : ((handedOut past).map Delivery.receipt).Perm
      ((returnedVia past).map Delivery.receipt ++ (deletedVia past).map Delivery.receipt
        ++ s.held.map Held.receipt ++ lapsed lease past) := by
    have hclosed := (closedVia_perm past).map Delivery.receipt
    rw [List.map_append] at hclosed
    rw [List.append_assoc _ (s.held.map _)]
    exact b.ends.trans (hclosed.append List.perm_append_comm)
  refine
    { deliveries := b.deliveries
      received := hreceived
      distinct := by omega
      redelivered := by omega
      returned := b.returned
      deleted := b.deleted
      once := h.traced.receipts_nodup
      ends := hends
      balance := ?_ }
  have hlength := hends.length_eq
  simp only [List.length_append, List.length_map] at hlength
  rw [hreceived, b.returned, b.deleted, hlength]

/-- Two messages are taken. The first one is given back, taken again and deleted. The lease of the
second one runs out, and when it is taken again, somebody tries to delete it through the receipt that
was lost. -/
def manyEnds : List (Nat × Deed) :=
  [(9, .attempt (.delete ⟨1, "q-2", "b"⟩)), (8, .attempt (.take 1)), (7, .observe),
    (4, .attempt (.delete ⟨2, "q-1", "a"⟩)), (3, .attempt (.take 1)),
    (2, .attempt (.giveBack ⟨0, "q-1", "a"⟩)), (1, .attempt (.take 2)),
    (0, .attempt (.send "b")), (0, .attempt (.send "a"))]

/-- Of four deliveries of two messages, one was given back, one deleted, one has lapsed and one is
held. -/
theorem reconciled_manyEnds :
    Reconciled 5 (Store.replay "q" 5 manyEnds).1 (Store.replay "q" 5 manyEnds).2 ∧
      (Store.replay "q" 5 manyEnds).2.tally = ⟨2, 4, 2, 0, 1, 1⟩ ∧
      (Store.replay "q" 5 manyEnds).2.held.map Held.receipt = [3] ∧
      lapsed 5 (Store.replay "q" 5 manyEnds).1 = [1] ∧
      idsHanded (Store.replay "q" 5 manyEnds).1 = ["q-1", "q-2"] :=
  ⟨(History.replay "q" 5 manyEnds (by decide)).shuffled.reconciled, by decide, by decide,
    by decide, by decide⟩

end

end Leasework.Queue
