import Leasework.Proofs.Queue.Conservation
import Leasework.Proofs.Queue.Fencing
import Leasework.Proofs.Queue.Line

/-!
# `Leasework.Proofs.Queue.FirstCome`: who is served first

The visible messages of a store stand in two blocks. Those that have been delivered before stand in
front, in whatever order they came back, and behind them stand those that have never been delivered,
in the order in which they were sent. Every operation keeps this: what comes back goes to the front,
what is new goes to the end, and batches are taken from the front.

The order in which leases that run out come back is not fixed, because the table of leases is in no
order. So the block in front is in no fixed order either, and nothing here depends on it.

* `Queued` is the invariant of the two blocks. Its main part is one equation: the messages in the
  order of their first deliveries, followed by those that were never delivered, are the messages in
  the order in which they were sent.
* `Store.due` are the messages that can be delivered at a moment. A message that is due stays so until
  it is delivered (`Store.Step.due_on`), and one that has been delivered before comes first in every
  batch (`Queued.batch_first`).

`Shuffled.firstCome` is the result.
-/

set_option autoImplicit false

namespace Leasework.Queue

/-! ### Deliveries in their order -/

/-- What has been handed out, the first delivery first. -/
def delivered (past : List Entry) : List Delivery := past.reverse.flatMap Entry.handedOut

/-- The messages that have been delivered, in the order of their first deliveries. -/
def firstDelivered (past : List Entry) : List (String × String) :=
  ((delivered past).map Delivery.ticket).eraseDups

/-- The messages that were sent, the first one first. -/
def ticketsSent (name : String) (past : List Entry) : List (String × String) :=
  (contentsSent past).mapIdx fun i content => (name ++ "-" ++ toString (i + 1), content)

section
variable {name : String} {past later : List Entry} {e : Entry} {x : String × String}

theorem delivered_cons (e : Entry) (past : List Entry) :
    delivered (e :: past) = delivered past ++ e.handedOut := by
  rw [delivered, List.reverse_cons, List.flatMap_append, List.flatMap_singleton]
  rfl

theorem delivered_append (later past : List Entry) :
    delivered (later ++ past) = delivered past ++ delivered later := by
  rw [delivered, List.reverse_append, List.flatMap_append]
  rfl

/-- Whatever is handed out is handed out as a batch. -/
theorem Entry.outcome_of_handedOut {d : Delivery} (h : d ∈ e.handedOut) :
    e.outcome = some (.answered (.ok (.batch e.handedOut))) := by
  unfold handedOut at h ⊢
  split at h
  · rename_i houtcome
    simp only [houtcome]
  · cases h

theorem delivered_cons_of_quiet (hnone : e.handedOut = []) :
    delivered (e :: past) = delivered past := by
  rw [delivered_cons, hnone, List.append_nil]

theorem firstDelivered_cons_of_quiet (hnone : e.handedOut = []) :
    firstDelivered (e :: past) = firstDelivered past := by
  rw [firstDelivered, delivered_cons_of_quiet hnone]
  rfl

theorem ticketsSent_cons_of_quiet (hsent : e.sent? = none) :
    ticketsSent name (e :: past) = ticketsSent name past := by
  rw [ticketsSent, contentsSent, List.filterMap_cons_none hsent]
  rfl

theorem ticketsSent_cons {content : String} (hsent : e.sent? = some content) :
    ticketsSent name (e :: past) = ticketsSent name past
      ++ [(name ++ "-" ++ toString ((contentsSent past).length + 1), content)] := by
  rw [ticketsSent, ticketsSent, contentsSent, List.filterMap_cons_some hsent, List.reverse_cons,
    ← contentsSent, List.mapIdx_append, List.mapIdx_cons, List.mapIdx_nil, Nat.zero_add]

theorem mem_ticketsSent : x ∈ ticketsSent name past ↔
    ∃ i, (contentsSent past)[i]? = some x.2 ∧ x.1 = name ++ "-" ++ toString (i + 1) := by
  rw [ticketsSent, List.mem_mapIdx]
  constructor
  · rintro ⟨i, hi, rfl⟩
    exact ⟨i, List.getElem?_eq_getElem hi, rfl⟩
  · rintro ⟨i, hcontent, hid⟩
    obtain ⟨hi, hcontent⟩ := List.getElem?_eq_some_iff.mp hcontent
    exact ⟨i, hi, Prod.ext hid.symm hcontent⟩

end

/-- A list without duplicates has none to erase. -/
theorem eraseDups_of_nodup {α : Type} [BEq α] [LawfulBEq α] {l : List α} (h : l.Nodup) :
    l.eraseDups = l := by
  induction l with
  | nil => rfl
  | cons a l ih =>
    obtain ⟨hnot, hnodup⟩ := List.nodup_cons.mp h
    have hkeep : l.filter (fun b => !b == a) = l := by
      refine List.filter_eq_self.mpr fun b hb => ?_
      rw [Bool.not_eq_true', beq_eq_false_iff_ne]
      rintro rfl
      exact hnot hb
    rw [List.eraseDups_cons, hkeep, ih hnodup]

/-- An element of two lists, one after the other, is one of the first list or one of the second. -/
theorem append_eq_append_cons {α : Type} {l l' front back : List α} {a : α}
    (h : l ++ l' = front ++ a :: back) :
    (∃ tail, l = front ++ a :: tail) ∨ ∃ tail, front = l ++ tail ∧ l' = tail ++ a :: back := by
  rcases List.append_eq_append_iff.mp h with ⟨tail, hfront, hl'⟩ | ⟨tail, hl, htail⟩
  · exact Or.inr ⟨tail, hfront, hl'⟩
  · rcases List.cons_eq_append_iff.mp htail with ⟨rfl, hl'⟩ | ⟨tail', rfl, -⟩
    · exact Or.inr ⟨[], by simpa using hl.symm, hl'⟩
    · exact Or.inl ⟨tail', hl⟩

/-! ### Messages that are due -/

namespace Store
variable {now now' : Nat} {s s' : Store} {m : Message} {held : List Held}

/-- The messages that can be delivered at a moment, expired leases reclaimed. -/
def due (now : Nat) (s : Store) : List Message := (s.reclaim now).visible

theorem mem_due :
    m ∈ s.due now ↔ m ∈ s.visible ∨ ∃ h ∈ s.held, h.expiry ≤ now ∧ h.message = m := by
  rw [due, visible_reclaim, List.mem_append, List.mem_reverse, Or.comm]
  simp [and_assoc]

theorem due_of_visible (h : m ∈ s.visible) : m ∈ s.due now := mem_due.mpr (Or.inl h)

theorem due_later (hle : now ≤ now') (h : m ∈ s.due now) : m ∈ s.due now' := by
  rcases mem_due.mp h with h | ⟨h, hh, hexpiry, hm⟩
  · exact due_of_visible h
  · exact mem_due.mpr (Or.inr ⟨h, hh, Nat.le_trans hexpiry hle, hm⟩)

theorem due_withHeld (same : held.Perm s.held) (h : m ∈ s.due now) :
    m ∈ (s.withHeld held).due now := by
  rcases mem_due.mp h with h | ⟨h, hh, hm⟩
  · exact due_of_visible h
  · exact mem_due.mpr (Or.inr ⟨h, same.mem_iff.mpr hh, hm⟩)

theorem map_ticket_deliveriesOf (s : Store) (batch : List Message) :
    (s.deliveriesOf batch).map Delivery.ticket = batch.map s.ticketOf := by
  refine List.ext_getElem (by simp [deliveriesOf]) fun i h₁ h₂ => ?_
  simp [deliveriesOf, Delivery.ticket, ticketOf]

/-- A message that is due stays due, unless it is delivered. -/
theorem Step.due_on {deed : Deed} {outcome : Option Outcome}
    (st : Step now s deed s' outcome) (h : m ∈ s.due now) :
    m ∈ s'.due now ∨ ∃ ds, outcome = some (.answered (.ok (.batch ds))) ∧
      s.ticketOf m ∈ ds.map Delivery.ticket := by
  cases st with
  | faulted | injected => exact Or.inl h
  | sent =>
    refine Or.inl (mem_due.mpr ?_)
    rcases mem_due.mp h with h | h
    · exact Or.inl (List.mem_append_left _ h)
    · exact Or.inr h
  | bare | observed | lost | renewed | deleted => exact Or.inl (due_of_visible h)
  | returned => exact Or.inl (due_of_visible (List.mem_cons_of_mem _ h))
  | taken most =>
    have hsplit : m ∈ (s.reclaim now).batch most
        ++ ((s.reclaim now).withoutBatch most).visible := by
      rw [Store.batch, Store.withoutBatch, List.take_append_drop]
      exact h
    rcases List.mem_append.mp hsplit with h | h
    · refine Or.inr ⟨_, rfl, ?_⟩
      rw [map_ticket_deliveriesOf]
      exact List.mem_map_of_mem h
    · exact Or.inl (due_of_visible h)

end Store

/-! ### The two blocks -/

/-- The messages that have never been delivered, the next one first. -/
def Store.fresh (s : Store) : List (String × String) :=
  (s.visible.filter fun m => m.deliveries = 0).map s.ticketOf

/-- The visible messages of a store stand in two blocks, as its record says:

- `held`: what is held has been delivered;
- `line`: behind a message that has never been delivered stand only such messages;
- `known`: a message knows whether it has been delivered;
- `order`: first deliveries, and then those that are still to come, are in the order of sending;
- `there`: whatever was sent is in stock, or was deleted through a delivery of it. -/
structure Queued (past : List Entry) (s : Store) : Prop where
  held : ∀ m ∈ s.held.map Held.message, 0 < m.deliveries
  line : s.visible.Pairwise fun m m' => m.deliveries = 0 → m'.deliveries = 0
  known : ∀ m ∈ s.messages,
    0 < m.deliveries ↔ s.ticketOf m ∈ (delivered past).map Delivery.ticket
  order : firstDelivered past ++ s.fresh = ticketsSent s.name past
  there : ∀ i content, (contentsSent past)[i]? = some content → (i + 1, content) ∈ s.stock ∨
    ∃ d ∈ deletedVia past, ⟨d.receipt, s.name ++ "-" ++ toString (i + 1), content⟩ ∈ handedOut past

/-- What is visible is a batch and the rest. -/
theorem Store.visible_eq_batch (most : Nat) (s : Store) :
    s.visible = s.batch most ++ (s.withoutBatch most).visible :=
  (List.take_append_drop _ _).symm

/-- The messages of a batch are in stock once, and no other message has their numbers. -/
theorem Orderly.numbers_batch {s : Store} (o : Orderly s) (most : Nat) :
    ((s.batch most).map Message.number
      ++ ((s.withoutBatch most).visible
        ++ s.held.map Held.message).map Message.number).Nodup := by
  have hnodup := o.numbers_nodup
  rwa [Store.stock, List.map_map, Store.messages, s.visible_eq_batch most, List.append_assoc,
    List.map_append] at hnodup

namespace Queued
variable {past : List Entry} {s s' : Store} {e : Entry} {now : Nat}

theorem empty (name : String) (lease : Nat) : Queued [] (.empty name lease) where
  held := List.forall_mem_nil _
  line := .nil
  known := List.forall_mem_nil _
  order := rfl
  there _ _ h := by cases h

/-- A store that has its messages in other places, with the new messages where they were. -/
theorem of_perm (q : Queued past s) (hname : s'.name = s.name)
    (hmessages : s'.messages.Perm s.messages)
    (hheld : ∀ m ∈ s'.held.map Held.message, 0 < m.deliveries)
    (hline : s'.visible.Pairwise fun m m' => m.deliveries = 0 → m'.deliveries = 0)
    (hfresh : s'.fresh = s.fresh) : Queued past s' where
  held := hheld
  line := hline
  known m hm := by
    rw [Store.ticketOf, Store.idOf, hname]
    exact q.known m (hmessages.mem_iff.mp hm)
  order := by rw [hfresh, hname, q.order]
  there i content hsent := by
    rw [hname]
    exact (q.there i content hsent).imp_left (hmessages.map _).mem_iff.mpr

/-- An entry that sends, delivers and deletes nothing. -/
theorem quiet (q : Queued past s) (hnone : e.handedOut = []) (hsent : e.sent? = none)
    (hdeleted : e.deletedVia? = none) : Queued (e :: past) s where
  held := q.held
  line := q.line
  known := by
    rw [delivered_cons_of_quiet hnone]
    exact q.known
  order := by
    rw [firstDelivered_cons_of_quiet hnone, ticketsSent_cons_of_quiet hsent]
    exact q.order
  there := by
    rw [contentsSent, List.filterMap_cons_none hsent, deletedVia,
      List.filterMap_cons_none hdeleted, handedOut_cons, hnone]
    exact q.there

theorem withHeld {held : List Held} (q : Queued past s) (same : held.Perm s.held) :
    Queued past (s.withHeld held) := by
  refine q.of_perm rfl ((same.map _).append_left _) (fun m hm => ?_) q.line rfl
  exact q.held m ((same.map _).mem_iff.mp hm)

/-- What comes back has been delivered, so it may stand in front. -/
theorem reclaim (now : Nat) (q : Queued past s) : Queued past (s.reclaim now) := by
  have hback : ∀ m ∈ ((s.held.filter fun h => h.expiry ≤ now).map Held.message).reverse,
      0 < m.deliveries := by
    intro m hm
    exact q.held m ((List.filter_sublist.map _).subset (List.mem_reverse.mp hm))
  refine q.of_perm rfl (Store.messages_reclaim now s) (fun m hm => ?_) ?_ ?_
  · exact q.held m ((List.filter_sublist.map _).subset hm)
  · rw [Store.visible_reclaim, List.pairwise_append]
    refine ⟨?_, q.line, fun m hm _ _ hzero => absurd hzero (Nat.ne_of_gt (hback m hm))⟩
    exact List.pairwise_of_forall_mem_list fun m hm _ _ hzero =>
      absurd hzero (Nat.ne_of_gt (hback m hm))
  · rw [Store.fresh, Store.visible_reclaim, List.filter_append,
      List.filter_eq_nil_iff.mpr fun m hm => by simpa using Nat.ne_of_gt (hback m hm)]
    rfl

theorem afterRenewal (now receipt : Nat) (q : Queued past s) :
    Queued past (s.afterRenewal now receipt) := by
  have hheld : (s.afterRenewal now receipt).held.map Held.message = s.held.map Held.message :=
    Store.map_held_setExpiry s receipt _ Held.message fun _ _ => rfl
  refine q.of_perm rfl ?_ ?_ q.line rfl
  · rw [Store.messages, hheld]
    exact .refl _
  · rw [hheld]
    exact q.held

theorem afterReturn {receipt : Nat} {h : Held} (o : Orderly s) (q : Queued past s)
    (found : s.find? receipt = some h) : Queued past (s.afterReturn h) := by
  obtain ⟨hmem, rfl⟩ := Store.mem_of_find? found
  have hperm := Store.held_perm_dropHeld o.receipts_nodup found
  have hback : 0 < h.message.deliveries := q.held _ (List.mem_map_of_mem hmem)
  refine q.of_perm rfl ?_ (fun m hm => ?_) ?_ ?_
  · show (h.message :: s.visible ++ (s.dropHeld h.receipt).held.map Held.message).Perm _
    rw [List.cons_append]
    exact List.perm_middle.symm.trans ((hperm.map Held.message).symm.append_left _)
  · exact q.held m ((hperm.map _).mem_iff.mpr (List.mem_cons_of_mem _ hm))
  · exact List.pairwise_cons.mpr ⟨fun _ _ hzero => absurd hzero (Nat.ne_of_gt hback), q.line⟩
  · show ((h.message :: s.visible).filter _).map _ = _
    rw [List.filter_cons_of_neg (by simpa using Nat.ne_of_gt hback)]
    rfl

/-- What has been delivered was sent. -/
theorem mem_sent {x : String × String} (q : Queued past s)
    (hx : x ∈ (delivered past).map Delivery.ticket) : x ∈ ticketsSent s.name past := by
  rw [← q.order]
  exact List.mem_append_left _ (List.mem_eraseDups.mpr hx)

/-- Nothing has been delivered under the number that a new message gets. -/
theorem next_undelivered {content : String} (f : Faithful past s) (q : Queued past s) :
    s.ticketOf ⟨s.numbered + 1, content, 0⟩ ∉ (delivered past).map Delivery.ticket := by
  intro hmem
  obtain ⟨i, hi, hid⟩ := mem_ticketsSent.mp (q.mem_sent hmem)
  have hlt := (List.getElem?_eq_some_iff.mp hi).1
  rw [f.length] at hlt
  have hsame : s.idOf ⟨s.numbered + 1, content, 0⟩ = s.idOf ⟨i + 1, content, 0⟩ := hid
  have hnumber : s.numbered + 1 = i + 1 := Store.idOf_inj.mp hsame
  omega

/-- A new message goes to the end. -/
theorem append {content : String} (f : Faithful past s) (q : Queued past s) :
    Queued (⟨now, .attempt (.send content), some (.answered (.ok .done))⟩ :: past)
      (s.append content).signal := by
  have hquiet : Entry.handedOut
      ⟨now, .attempt (.send content), some (.answered (.ok .done))⟩ = [] := rfl
  have hsent : Entry.sent? ⟨now, .attempt (.send content), some (.answered (.ok .done))⟩
      = some content := rfl
  have hpast : contentsSent (⟨now, .attempt (.send content), some (.answered (.ok .done))⟩ :: past)
      = contentsSent past ++ [content] := List.reverse_cons
  have hstock := Store.stock_append content s
  refine ⟨q.held, ?_, fun m hm => ?_, ?_, fun i content' hi => ?_⟩
  · refine List.pairwise_append.mpr ⟨q.line, List.pairwise_singleton _ _, fun _ _ m hm _ => ?_⟩
    rw [List.mem_singleton.mp hm]
  · rw [delivered_cons_of_quiet hquiet]
    have hm : m ∈ s.visible ++ [⟨s.numbered + 1, content, 0⟩] ++ s.held.map Held.message := hm
    rw [List.append_assoc, List.mem_append, List.mem_append, List.mem_singleton] at hm
    rcases hm with hm | rfl | hm
    · exact q.known m (List.mem_append_left _ hm)
    · exact iff_of_false (Nat.lt_irrefl 0) (q.next_undelivered f)
    · exact q.known m (List.mem_append_right _ hm)
  · rw [firstDelivered_cons_of_quiet hquiet, ticketsSent_cons hsent, f.length]
    show _ ++ ((s.visible ++ [(⟨s.numbered + 1, content, 0⟩ : Message)]).filter _).map s.ticketOf
      = ticketsSent s.name past ++ _
    rw [List.filter_append, List.map_append, ← List.append_assoc, ← q.order]
    rfl
  · rw [hpast] at hi
    show _ ∨ ∃ d ∈ deletedVia past, _ ∈ handedOut past
    rcases Nat.lt_or_ge i (contentsSent past).length with hlt | hge
    · rw [List.getElem?_append_left hlt] at hi
      exact (q.there i content' hi).imp_left fun hold =>
        hstock.mem_iff.mpr (List.mem_cons_of_mem _ hold)
    · have hlt := (List.getElem?_eq_some_iff.mp hi).1
      rw [List.length_append, List.length_singleton] at hlt
      obtain rfl : i = (contentsSent past).length := by omega
      rw [List.getElem?_concat_length] at hi
      cases hi
      rw [f.length]
      exact Or.inl (hstock.mem_iff.mpr List.mem_cons_self)

/-- The first deliveries of a batch are those of its messages that have not been delivered before. -/
theorem batch_fresh (o : Orderly s) (q : Queued past s) (most : Nat) :
    (((s.batch most).map s.ticketOf).removeAll
        ((delivered past).map Delivery.ticket)).eraseDups
      = ((s.batch most).filter fun m => m.deliveries = 0).map s.ticketOf := by
  have hfirst : ((s.batch most).map s.ticketOf).removeAll
      ((delivered past).map Delivery.ticket)
        = ((s.batch most).filter fun m => m.deliveries = 0).map s.ticketOf := by
    rw [List.removeAll, List.filter_map]
    congr 1
    refine List.filter_congr fun m hm => ?_
    have hknown := q.known m (List.mem_append_left _ (List.mem_of_mem_take hm))
    simp only [Function.comp_apply, List.elem_eq_contains, List.contains_eq_mem,
      ← hknown, Nat.pos_iff_ne_zero, ← decide_not, ne_eq, not_not]
  rw [hfirst]
  have hnumbers := (List.nodup_append.mp (o.numbers_batch most)).1
  refine eraseDups_of_nodup (List.Nodup.map_on (fun m hm m' hm' hticket => ?_)
    (List.Nodup.of_map _ (hnumbers.sublist (List.filter_sublist.map _))))
  refine List.inj_on_of_nodup_map hnumbers (List.mem_filter.mp hm).1 (List.mem_filter.mp hm').1 ?_
  exact Store.idOf_inj.mp (Prod.mk.inj hticket).1

/-- Of what is in stock after a batch, the batch has been delivered, and the rest as far as it was
before. -/
theorem batch_known (o : Orderly s) (q : Queued past s) {most : Nat} {m : Message}
    (hm : m ∈ ((s.withoutBatch most).handOver now (s.batch most)).messages) :
    0 < m.deliveries ↔ s.ticketOf m
      ∈ (delivered past).map Delivery.ticket ++ (s.batch most).map s.ticketOf := by
  have hm : m ∈ (s.withoutBatch most).visible
      ++ (s.held ++ (s.withoutBatch most).leasesOf now (s.batch most)).map Held.message := hm
  rw [List.map_append, ← List.append_assoc] at hm
  rcases List.mem_append.mp hm with hm | hm
  · have hmessage : m ∈ s.messages := by
      rw [Store.messages, s.visible_eq_batch most, List.append_assoc]
      exact List.mem_append_right _ hm
    rw [q.known m hmessage, List.mem_append]
    refine ⟨Or.inl, fun hmem => hmem.resolve_right fun hmem => ?_⟩
    -- A message of the batch would have the same number.
    obtain ⟨m', hm', hticket⟩ := List.mem_map.mp hmem
    have hnumber := Store.idOf_inj.mp (Prod.mk.inj hticket).1
    refine List.disjoint_of_nodup_append (o.numbers_batch most) (List.mem_map_of_mem hm') ?_
    rw [hnumber]
    exact List.mem_map_of_mem hm
  · obtain ⟨h, hh, rfl⟩ := List.mem_map.mp hm
    obtain ⟨i, hi, rfl⟩ := List.mem_mapIdx.mp hh
    refine iff_of_true (Nat.succ_pos _) (List.mem_append_right _ ?_)
    exact List.mem_map.mpr ⟨_, List.getElem_mem hi, rfl⟩

/-- A batch is taken from the front. -/
theorem takeBatch {most : Nat} (o : Orderly s) (q : Queued past s) :
    Queued
      (⟨now, .attempt (.take most), some (.answered (.ok (.batch
        (s.deliveriesOf (s.batch most)))))⟩ :: past)
      ((s.withoutBatch most).handOver now (s.batch most)) := by
  have htickets : (delivered (⟨now, .attempt (.take most), some (.answered (.ok (.batch
        (s.deliveriesOf (s.batch most)))))⟩ :: past)).map Delivery.ticket
      = (delivered past).map Delivery.ticket ++ (s.batch most).map s.ticketOf := by
    rw [delivered_cons, List.map_append, ← Store.map_ticket_deliveriesOf]
    rfl
  refine ⟨fun m hm => ?_, ?_, fun m hm => ?_, ?_, fun i content hi => ?_⟩
  · obtain ⟨h, hh, rfl⟩ := List.mem_map.mp hm
    rcases List.mem_append.mp hh with hh | hh
    · exact q.held _ (List.mem_map_of_mem hh)
    · obtain ⟨_, _, rfl⟩ := List.mem_mapIdx.mp hh
      exact Nat.succ_pos _
  · exact q.line.sublist (List.drop_sublist _ _)
  · rw [htickets]
    exact q.batch_known o hm
  · have hfresh : s.fresh = ((s.batch most).filter fun m => m.deliveries = 0).map s.ticketOf
        ++ ((s.withoutBatch most).handOver now (s.batch most)).fresh := by
      rw [Store.fresh, s.visible_eq_batch most, List.filter_append, List.map_append]
      rfl
    rw [firstDelivered, htickets, List.eraseDups_append, q.batch_fresh o, List.append_assoc,
      ← hfresh]
    exact q.order
  · rcases q.there i content hi with hold | ⟨d, hd, hout⟩
    · exact Or.inl ((Store.stock_takeBatch now most s).mem_iff.mpr hold)
    · refine Or.inr ⟨d, hd, ?_⟩
      rw [handedOut_cons]
      exact List.mem_append_right _ hout

/-- A message that is deleted leaves the others where they are. -/
theorem afterDeletion {d : Delivery} {h : Held} (o : Orderly s) (t : Traced past s)
    (q : Queued past s) (found : s.find? d.receipt = some h) :
    Queued (⟨now, .attempt (.delete d), some (.answered (.ok .done))⟩ :: past)
      (s.afterDeletion d.receipt) := by
  obtain ⟨hmem, hr⟩ := Store.mem_of_find? found
  have hquiet : Entry.handedOut
      ⟨now, .attempt (.delete d), some (.answered (.ok .done))⟩ = [] := rfl
  have hless : ∀ m ∈ (s.dropHeld d.receipt).held.map Held.message,
      m ∈ s.held.map Held.message := (List.filter_sublist.map _).subset
  refine ⟨fun m hm => q.held m (hless m hm), q.line, fun m hm => ?_, ?_, fun i content hi => ?_⟩
  · rw [delivered_cons_of_quiet hquiet]
    refine q.known m ?_
    rcases List.mem_append.mp hm with hm | hm
    · exact List.mem_append_left _ hm
    · exact List.mem_append_right _ (hless m hm)
  · rw [firstDelivered_cons_of_quiet hquiet]
    exact q.order
  · show _ ∨ ∃ d' ∈ d :: deletedVia past, _ ∈ handedOut past
    rcases q.there i content hi with hold | ⟨d', hd', hout⟩
    · rcases List.mem_cons.mp
        ((Store.stock_afterDeletion o.receipts_nodup found).mem_iff.mp hold) with heq | hold
      · -- The message was deleted just now, through the delivery under whose receipt it was held.
        refine Or.inr ⟨d, List.mem_cons_self, ?_⟩
        have hout := t.held h hmem
        rw [hr, Store.idOf, ← (Prod.mk.inj heq).1, ← (Prod.mk.inj heq).2] at hout
        exact hout
      · exact Or.inl hold
    · exact Or.inr ⟨d', List.mem_cons_of_mem _ hd', hout⟩

/-- Every step keeps the two blocks. -/
theorem step {deed : Deed} {outcome : Option Outcome} (o : Orderly s) (t : Traced past s)
    (f : Faithful past s) (q : Queued past s) (st : Store.Step now s deed s' outcome) :
    Queued (⟨now, deed, outcome⟩ :: past) s' := by
  have or := o.reclaim now
  have qr := q.reclaim now
  cases st with
  | faulted request kind =>
    have same : Queued past (s.useFault kind) := q.of_perm rfl (.refl _) q.held q.line rfl
    cases request <;> exact same.quiet rfl rfl rfl
  | injected kind count =>
    have same : Queued past (s.inject kind count) := q.of_perm rfl (.refl _) q.held q.line rfl
    exact same.quiet rfl rfl rfl
  | sent => exact q.append f
  | bare => exact qr.quiet rfl rfl rfl
  | observed => exact qr.quiet rfl rfl rfl
  | lost request => cases request <;> exact qr.quiet rfl rfl rfl
  | taken => exact qr.takeBatch or
  | renewed d => exact (qr.afterRenewal now d.receipt).quiet rfl rfl rfl
  | returned d h _ found => exact (qr.afterReturn or found).quiet rfl rfl rfl
  | deleted d h _ found =>
    have tr : Traced past (s.reclaim now) :=
      { t with held := fun h hh => t.held h (Store.mem_held_reclaim.mp hh).1 }
    exact qr.afterDeletion or tr found

/-- In every batch, a message that is due and has been delivered before comes before a message that
has never been delivered. -/
theorem batch_first {deed : Deed} {ds front back : List Delivery} {d : Delivery} {m : Message}
    (q : Queued past s)
    (st : Store.Step now s deed s' (some (.answered (.ok (.batch ds)))))
    (hdue : m ∈ s.due now) (hback : 0 < m.deliveries) (hds : ds = front ++ d :: back)
    (hnew : d.ticket ∉ (delivered past).map Delivery.ticket) :
    s.ticketOf m ∈ front.map Delivery.ticket := by
  cases st with
  | taken most =>
    have htickets := congrArg (List.map Delivery.ticket) hds
    rw [Store.map_ticket_deliveriesOf, List.map_append, List.map_cons] at htickets
    obtain ⟨ms, rest, hbatch, hfront, hrest⟩ := List.map_eq_append_iff.mp htickets
    obtain ⟨m₀, ms', rfl, hticket, -⟩ := List.map_eq_cons_iff.mp hrest
    -- The new message stands at its place among the visible ones, and the due one before it.
    have hvisible : (s.reclaim now).visible
        = ms ++ m₀ :: (ms' ++ (s.reclaim now).visible.drop (atLeastOne most)) := by
      rw [← List.cons_append, ← List.append_assoc, ← hbatch]
      exact (List.take_append_drop _ _).symm
    have hzero : m₀.deliveries = 0 := by
      have hm₀ : m₀ ∈ (s.reclaim now).messages := by
        rw [Store.messages, hvisible]
        exact List.mem_append_left _ (List.mem_append_right _ List.mem_cons_self)
      refine Nat.eq_zero_of_not_pos fun hpos => hnew ?_
      rw [← hticket]
      exact ((q.reclaim now).known m₀ hm₀).mp hpos
    have hline := (q.reclaim now).line
    rw [hvisible, List.pairwise_append, List.pairwise_cons] at hline
    rw [Store.due, hvisible] at hdue
    rcases List.mem_append.mp hdue with hm | hm
    · rw [← hfront]
      exact List.mem_map_of_mem hm
    · rcases List.mem_cons.mp hm with rfl | hm
      · omega
      · have hafter := hline.2.1.1 m hm hzero
        omega

end Queued

section
variable {name : String} {lease now : Nat} {past : List Entry} {s : Store}

/-- A store keeps the two blocks in every run. -/
theorem Shuffled.queued (h : Shuffled name lease past s) : Queued past s := by
  induction h using Shuffled.steps with
  | start => exact .empty name lease
  | step before _ same _ st ih =>
    exact (ih.withHeld same).step (before.orderly.withHeld same) (before.traced.withHeld same)
      (before.faithful.withHeld same) st

/-! ### Messages that wait to be delivered again -/

/-- At a moment, a message has been delivered and not deleted, and none of its deliveries holds it
any more: it was given back, or its lease has run out. -/
structure AwaitsAgain (lease : Nat) (past : List Entry) (now : Nat) (x : String × String) :
    Prop where
  delivered : x ∈ (delivered past).map Delivery.ticket
  undeleted : ∀ d ∈ deletedVia past, ∀ d' ∈ handedOut past, d'.receipt = d.receipt → d'.ticket ≠ x
  lost : ∀ d ∈ handedOut past, d.ticket = x → ¬ Alive lease past d.receipt now

/-- Such a message is due. -/
theorem Shuffled.due_of_awaits {x : String × String} (run : Shuffled name lease past s)
    (hnow : ∀ e ∈ past, e.now ≤ now) (waits : AwaitsAgain lease past now x) :
    ∃ m ∈ s.due now, s.ticketOf m = x ∧ 0 < m.deliveries := by
  -- It was sent, and has not been deleted, so it is in stock.
  obtain ⟨i, hi, hid⟩ := mem_ticketsSent.mp (run.queued.mem_sent waits.delivered)
  rcases run.queued.there i x.2 hi with hstock | ⟨d, hd, hout⟩
  · obtain ⟨m, hm, hlabel⟩ := List.mem_map.mp hstock
    have hticket : s.ticketOf m = x := by
      refine Prod.ext (Eq.trans ?_ hid.symm) (Prod.mk.inj hlabel).2
      show s.name ++ "-" ++ toString m.number = _
      rw [(Prod.mk.inj hlabel).1]
    have hback : 0 < m.deliveries := (run.queued.known m hm).mpr (hticket ▸ waits.delivered)
    refine ⟨m, Store.mem_due.mpr ?_, hticket, hback⟩
    rcases List.mem_append.mp hm with hm | hm
    · exact Or.inl hm
    · obtain ⟨h, hh, rfl⟩ := List.mem_map.mp hm
      refine Or.inr ⟨h, hh, Nat.not_lt.mp fun hlive => ?_, rfl⟩
      -- A lease that lasts would be that of a delivery that is alive.
      obtain ⟨hopen, t, ht, hexpiry⟩ := (run.accounted hnow).held h hh
      exact waits.lost _ (run.traced.held h hh) hticket ⟨hopen, t, ht, hexpiry ▸ hlive⟩
  · refine absurd ?_ (waits.undeleted d hd _ hout rfl)
    exact Prod.ext hid.symm rfl

/-- Until it is delivered again, a message that waits for it stays due. -/
theorem Shuffled.stays_due {x : String × String} {later : List Entry} {s' : Store}
    (hnow : ∀ e ∈ past, e.now ≤ now) (waits : AwaitsAgain lease past now x)
    (h : Shuffled name lease (later ++ past) s') (hlater : ∀ e ∈ later, now ≤ e.now)
    (hnot : x ∉ (delivered later).map Delivery.ticket) {now' : Nat} (hle : now ≤ now')
    (hnow' : ∀ e ∈ later, e.now ≤ now') :
    ∃ m ∈ s'.due now', s'.ticketOf m = x ∧ 0 < m.deliveries := by
  induction later generalizing s' now' with
  | nil =>
    obtain ⟨m, hdue, hm⟩ := h.due_of_awaits hnow waits
    exact ⟨m, Store.due_later hle hdue, hm⟩
  | cons e rest ih =>
    rw [List.forall_mem_cons] at hlater hnow'
    rw [delivered_cons, List.map_append, List.mem_append, not_or] at hnot
    rw [List.cons_append] at h
    obtain ⟨s₀, held, before, same, hbefore, st⟩ := h.last
    have hbefore' := fun e' he' => hbefore e' (List.mem_append_left past he')
    obtain ⟨m, hdue, hticket, hback⟩ := ih before hlater.2 hnot.1 hlater.1 hbefore'
    rcases st.due_on (Store.due_withHeld same hdue) with hdue | ⟨ds, houtcome, hmem⟩
    · refine ⟨m, Store.due_later hnow'.1 hdue, Eq.trans ?_ hticket, hback⟩
      rw [Store.ticketOf, Store.idOf, st.name_lease.1]
      rfl
    · refine absurd ?_ hnot.2
      rw [Entry.handedOut, houtcome]
      exact hticket ▸ hmem

/-- A message that waits to be delivered again is delivered before every message that has not been
delivered yet. -/
theorem Shuffled.redelivered_first {x : String × String} {later : List Entry} {s' : Store}
    (hnow : ∀ e ∈ past, e.now ≤ now) (waits : AwaitsAgain lease past now x)
    (h : Shuffled name lease (later ++ past) s') (hlater : ∀ e ∈ later, now ≤ e.now)
    {front back : List Delivery} {d : Delivery} (hsplit : delivered later = front ++ d :: back)
    (hnew : d.ticket ∉ (delivered past).map Delivery.ticket) :
    x ∈ front.map Delivery.ticket := by
  induction later generalizing s' front back d with
  | nil => simp [delivered] at hsplit
  | cons e rest ih =>
    rw [List.forall_mem_cons] at hlater
    rw [delivered_cons] at hsplit
    rw [List.cons_append] at h
    obtain ⟨s₀, held, before, same, hbefore, st⟩ := h.last
    rcases append_eq_append_cons hsplit with ⟨tail, hfront⟩ | ⟨tail, rfl, hout⟩
    · exact ih before hlater.2 hfront hnew
    · -- The delivery is one of the last batch.
      rw [List.map_append, List.mem_append]
      by_cases hagain : d.ticket ∈ (delivered rest).map Delivery.ticket
      · obtain ⟨d₀, hd₀, hticket⟩ := List.mem_map.mp hagain
        obtain ⟨front, back, hfirst⟩ := List.append_of_mem hd₀
        refine Or.inl ?_
        rw [hfirst, List.map_append]
        exact List.mem_append_left _ (ih before hlater.2 hfirst (hticket ▸ hnew))
      · by_cases hx : x ∈ (delivered rest).map Delivery.ticket
        · exact Or.inl hx
        · have hbefore' := fun e' he' => hbefore e' (List.mem_append_left past he')
          obtain ⟨m, hdue, hticket, hback⟩ :=
            before.stays_due hnow waits hlater.2 hx hlater.1 hbefore'
          have hd : d ∈ e.handedOut := hout ▸ List.mem_append_right _ List.mem_cons_self
          rw [Entry.outcome_of_handedOut hd] at st
          refine Or.inr (hticket ▸ (before.queued.withHeld same).batch_first st ?_ hback hout ?_)
          · exact Store.due_withHeld same hdue
          · rw [delivered_append, List.map_append, List.mem_append, not_or]
            exact ⟨hnew, hagain⟩

/-! ### What is promised -/

/-- A store serves its messages as they came:

- `line`: the visible messages are some that have been delivered before, followed by those that have
  never been delivered; first deliveries and these together are in the order of sending;
- `batches`: a call that gets messages gets the first ones that are due, in their order, at least
  one and no more than it asked for, and the others that are due stay in line;
- `again`: whatever happens next, a message that waits to be delivered again is delivered before
  every message that has never been delivered. -/
structure FirstCome (name : String) (lease : Nat) (past : List Entry) (s : Store) : Prop where
  line : ∃ again fresh, s.visible = again ++ fresh ∧
    (∀ m ∈ again, s.ticketOf m ∈ (delivered past).map Delivery.ticket) ∧
    (∀ m ∈ fresh, s.ticketOf m ∉ (delivered past).map Delivery.ticket) ∧
    firstDelivered past ++ fresh.map s.ticketOf = ticketsSent name past
  batches : ∀ held, held.Perm s.held → ∀ canceled now most (c : Call) move s' reply,
    c.request = .take most →
    c.step canceled now (s.withHeld held) move = some (s', .ended (.ok reply)) →
    ∃ ds, reply = .batch ds ∧
      ds.map Delivery.ticket = (((s.withHeld held).due now).take
        (min (max 1 most) ((s.withHeld held).due now).length)).map s.ticketOf ∧
      s'.visible = ((s.withHeld held).due now).drop (max 1 most)
  again : ∀ x now, (∀ e ∈ past, e.now ≤ now) → AwaitsAgain lease past now x →
    ∀ later s', Shuffled name lease (later ++ past) s' → (∀ e ∈ later, now ≤ e.now) →
    ∀ front d back, delivered later = front ++ d :: back →
      d.ticket ∉ (delivered past).map Delivery.ticket → x ∈ front.map Delivery.ticket

/-- The visible messages stand in two blocks. -/
theorem Queued.exists_line (q : Queued past s) : ∃ again fresh, s.visible = again ++ fresh ∧
    (∀ m ∈ again, 0 < m.deliveries) ∧ (∀ m ∈ fresh, m.deliveries = 0) ∧
    fresh.map s.ticketOf = s.fresh := by
  obtain ⟨again, fresh, hvisible, hagain, hfresh⟩ : ∃ again fresh, s.visible = again ++ fresh ∧
      (∀ m ∈ again, 0 < m.deliveries) ∧ ∀ m ∈ fresh, m.deliveries = 0 := by
    have hline := q.line
    generalize s.visible = visible at hline
    induction visible with
    | nil => exact ⟨[], [], rfl, List.forall_mem_nil _, List.forall_mem_nil _⟩
    | cons m visible ih =>
      obtain ⟨hbehind, hline⟩ := List.pairwise_cons.mp hline
      rcases Nat.eq_zero_or_pos m.deliveries with hzero | hpos
      · refine ⟨[], m :: visible, rfl, List.forall_mem_nil _, ?_⟩
        exact List.forall_mem_cons.mpr ⟨hzero, fun m' hm' => hbehind m' hm' hzero⟩
      · obtain ⟨again, fresh, rfl, hagain, hfresh⟩ := ih hline
        exact ⟨m :: again, fresh, rfl, List.forall_mem_cons.mpr ⟨hpos, hagain⟩, hfresh⟩
  refine ⟨again, fresh, hvisible, hagain, hfresh, ?_⟩
  rw [Store.fresh, hvisible, List.filter_append,
    List.filter_eq_nil_iff.mpr fun m hm => by simpa using Nat.ne_of_gt (hagain m hm),
    List.filter_eq_self.mpr fun m hm => by simpa using hfresh m hm, List.nil_append]

/-- A call that gets messages gets the first ones that are due. -/
theorem Call.took_first {canceled : Bool} {most : Nat} {c : Call} {move : CallMove} {s' : Store}
    {reply : Reply} (hrequest : c.request = .take most)
    (h : c.step canceled now s move = some (s', .ended (.ok reply))) :
    ∃ ds, reply = .batch ds ∧
      ds.map Delivery.ticket
        = ((s.due now).take (min (max 1 most) (s.due now).length)).map s.ticketOf ∧
      s'.visible = (s.due now).drop (max 1 most) := by
  have st := (Call.step_cases h).succeeded
  rw [hrequest] at st
  cases st with
  | taken =>
    refine ⟨_, rfl, ?_, rfl⟩
    rw [Store.map_ticket_deliveriesOf, ← List.take_eq_take_min]
    rfl

/-- In every run of a store, however its leases are ordered, first come is first served. -/
theorem Shuffled.firstCome (h : Shuffled name lease past s) : FirstCome name lease past s := by
  have q := h.queued
  refine ⟨?_, fun held _ canceled now most c move s' reply hrequest happens =>
    Call.took_first hrequest happens, fun x now hnow waits later s' h' hlater front d back =>
    Shuffled.redelivered_first hnow waits h' hlater⟩
  obtain ⟨again, fresh, hvisible, hagain, hfresh, htickets⟩ := q.exists_line
  refine ⟨again, fresh, hvisible, fun m hm => ?_, fun m hm hmem => ?_, ?_⟩
  · refine (q.known m ?_).mp (hagain m hm)
    exact List.mem_append_left _ (hvisible ▸ List.mem_append_left _ hm)
  · refine absurd ((q.known m ?_).mpr hmem) (Nat.not_lt.mpr (Nat.le_of_eq (hfresh m hm)))
    exact List.mem_append_left _ (hvisible ▸ List.mem_append_right _ hm)
  · rw [htickets, q.order, h.name_lease.1]

/-- Three messages are sent. The first two are taken, the first one is given back, and the lease of
the second one runs out. -/
def comeBack : List (Nat × Deed) :=
  [(6, .observe), (2, .attempt (.giveBack ⟨0, "q-1", "a"⟩)), (1, .attempt (.take 2)),
    (0, .attempt (.send "c")), (0, .attempt (.send "b")), (0, .attempt (.send "a"))]

/-- What came back stands in front and waits to be delivered again, and the message that was never
delivered stands behind it. -/
theorem firstCome_comeBack :
    FirstCome "q" 5 (Store.replay "q" 5 comeBack).1 (Store.replay "q" 5 comeBack).2 ∧
      (Store.replay "q" 5 comeBack).2.visible.map Message.number = [2, 1, 3] ∧
      firstDelivered (Store.replay "q" 5 comeBack).1 = [("q-1", "a"), ("q-2", "b")] ∧
      AwaitsAgain 5 (Store.replay "q" 5 comeBack).1 6 ("q-1", "a") := by
  refine ⟨(History.replay "q" 5 comeBack (by decide)).shuffled.firstCome, by decide, by decide,
    by decide, List.forall_mem_nil _, fun d hd hticket ha => ?_⟩
  -- The only delivery of the message is the one through which it was given back.
  have hreceipt : ∀ d ∈ handedOut (Store.replay "q" 5 comeBack).1, d.ticket = ("q-1", "a") →
      d.receipt = 0 := by decide
  have hclosed : ⟨0, "q-1", "a"⟩ ∈ closedVia (Store.replay "q" 5 comeBack).1 := by decide
  exact ha.1 _ hclosed (hreceipt d hd hticket).symm

end

end Leasework.Queue
