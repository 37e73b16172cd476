import Mathlib.Data.List.Nodup
import Leasework.Proofs.Queue.History

/-!
# `Leasework.Proofs.Queue.Orderly`: what every reachable store keeps

Two invariants that all later statements about stores stand on.

* `Orderly` is about the store alone: receipts and numbers are pairwise distinct and were
  all handed out, and the tally balances. `Shuffled.orderly` proves it of every state of a
  run.
* `Traced` ties a store to its record: everything held was handed out as such, and no
  receipt was handed out twice. `Shuffled.traced` proves it.

Neither depends on the order of the leases.
-/

set_option autoImplicit false

namespace Leasework.Queue

/-! ### Receipts, numbers and the tally -/

/-- The books of a store are in order. -/
structure Orderly (s : Store) : Prop where
  /-- No two messages are held under one receipt. -/
  receipts_nodup : (s.held.map Held.receipt).Nodup
  /-- Only receipts that were handed out are in use. -/
  receipts_lt : ∀ h ∈ s.held, h.receipt < s.receipts
  /-- No two messages have one number. -/
  numbers_nodup : (s.stock.map Prod.fst).Nodup
  /-- Messages are numbered from one on. -/
  numbers : ∀ l ∈ s.stock, 1 ≤ l.1 ∧ l.1 ≤ s.numbered
  /-- Every number went to a message that was sent. -/
  sent : s.tally.sent = s.numbered
  /-- Every message that was sent is still there or was deleted. -/
  balance : s.numbered = s.tally.deleted + s.stock.length

namespace Orderly
variable {s s' : Store}

theorem empty (name : String) (lease : Nat) : Orderly (.empty name lease) where
  receipts_nodup := List.nodup_nil
  receipts_lt := by simp [Store.empty]
  numbers_nodup := List.nodup_nil
  numbers := by simp [Store.empty, Store.stock, Store.messages]
  sent := rfl
  balance := rfl

/-- An operation that keeps the stock and the numbers keeps the books in order, as long as
the receipts stay in order. -/
theorem of_stock_perm (o : Orderly s) (hnd : (s'.held.map Held.receipt).Nodup)
    (hlt : ∀ h ∈ s'.held, h.receipt < s'.receipts) (hstock : s'.stock.Perm s.stock)
    (hnumbered : s'.numbered = s.numbered) (hsent : s'.tally.sent = s.tally.sent)
    (hdeleted : s'.tally.deleted = s.tally.deleted) : Orderly s' where
  receipts_nodup := hnd
  receipts_lt := hlt
  numbers_nodup := (hstock.map Prod.fst).nodup_iff.mpr o.numbers_nodup
  numbers l hl := hnumbered ▸ o.numbers l (hstock.mem_iff.mp hl)
  sent := by rw [hsent, hnumbered, o.sent]
  balance := by rw [hnumbered, hdeleted, hstock.length_eq, o.balance]

theorem withHeld {held : List Held} (o : Orderly s) (same : held.Perm s.held) :
    Orderly (s.withHeld held) :=
  o.of_stock_perm ((same.map _).nodup_iff.mpr o.receipts_nodup)
    (fun h hh => o.receipts_lt h (same.mem_iff.mp hh)) (Store.stock_withHeld same) rfl rfl rfl

theorem reclaim (now : Nat) (o : Orderly s) : Orderly (s.reclaim now) :=
  o.of_stock_perm (o.receipts_nodup.sublist (List.filter_sublist.map _))
    (fun h hh => o.receipts_lt h (Store.mem_held_reclaim.mp hh).1)
    (Store.stock_reclaim now s) rfl rfl rfl

theorem append (content : String) (o : Orderly s) : Orderly (s.append content).signal where
  receipts_nodup := o.receipts_nodup
  receipts_lt := o.receipts_lt
  numbers_nodup := by
    rw [((Store.stock_append content s).map Prod.fst).nodup_iff, List.map_cons,
      List.nodup_cons]
    refine ⟨fun hmem => ?_, o.numbers_nodup⟩
    -- The new number is larger than every number that was handed out.
    obtain ⟨l, hl, he⟩ := List.mem_map.mp hmem
    have hle := (o.numbers l hl).2
    omega
  numbers l hl := by
    show 1 ≤ l.1 ∧ l.1 ≤ s.numbered + 1
    rcases List.mem_cons.mp ((Store.stock_append content s).mem_iff.mp hl) with rfl | hl
    · exact ⟨Nat.le_add_left 1 _, Nat.le_refl _⟩
    · have hle := o.numbers l hl
      omega
  sent := congrArg (· + 1) o.sent
  balance := by
    rw [(Store.stock_append content s).length_eq, List.length_cons]
    show s.numbered + 1 = s.tally.deleted + (s.stock.length + 1)
    have hbalance := o.balance
    omega

theorem takeBatch (now most : Nat) (o : Orderly s) :
    Orderly ((s.withoutBatch most).handOver now (s.batch most)) := by
  have hnew := Store.map_receipt_leasesOf now (s.withoutBatch most) (s.batch most)
  refine o.of_stock_perm ?_ ?_ (Store.stock_takeBatch now most s) rfl rfl rfl
  · show ((s.held ++ (s.withoutBatch most).leasesOf now (s.batch most)).map _).Nodup
    rw [List.map_append, hnew, List.nodup_append]
    refine ⟨o.receipts_nodup, List.nodup_range', fun r hr r' hr' => ?_⟩
    -- Receipts in use were handed out before, and those of the batch follow them.
    obtain ⟨h, hh, rfl⟩ := List.mem_map.mp hr
    have hlt := o.receipts_lt h hh
    have hge : s.receipts ≤ r' := (List.mem_range'_1.mp hr').1
    omega
  · intro h hh
    rcases List.mem_append.mp hh with hh | hh
    · exact Nat.lt_of_lt_of_le (o.receipts_lt h hh) (Nat.le_add_right _ _)
    · exact (Store.mem_leasesOf hh).2.1

theorem afterRenewal (now receipt : Nat) (o : Orderly s) :
    Orderly (s.afterRenewal now receipt) := by
  have hreceipts := Store.map_held_setExpiry s receipt (now + s.lease) Held.receipt fun _ _ => rfl
  refine o.of_stock_perm ?_ ?_ (Store.stock_afterRenewal now receipt s ▸ .refl _) rfl rfl rfl
  · exact hreceipts.symm ▸ o.receipts_nodup
  · intro h hh
    obtain ⟨h₀, hh₀, rfl⟩ := Store.mem_held_setExpiry.mp hh
    have hlt := o.receipts_lt h₀ hh₀
    split <;> exact hlt

theorem dropHeld_nodup (receipt : Nat) (o : Orderly s) :
    ((s.dropHeld receipt).held.map Held.receipt).Nodup :=
  o.receipts_nodup.sublist (List.filter_sublist.map _)

theorem afterReturn {receipt : Nat} {h : Held} (hf : s.find? receipt = some h) (o : Orderly s) :
    Orderly (s.afterReturn h) :=
  o.of_stock_perm (o.dropHeld_nodup h.receipt)
    (fun h' hh' => o.receipts_lt h' (Store.mem_held_dropHeld.mp hh').1)
    (Store.stock_afterReturn o.receipts_nodup hf) rfl rfl rfl

theorem afterDeletion {receipt : Nat} {h : Held} (hf : s.find? receipt = some h)
    (o : Orderly s) : Orderly (s.afterDeletion receipt) := by
  have hstock := Store.stock_afterDeletion o.receipts_nodup hf
  have hnd := (hstock.map Prod.fst).nodup_iff.mp o.numbers_nodup
  refine
    { receipts_nodup := o.dropHeld_nodup receipt
      receipts_lt := fun h' hh' => o.receipts_lt h' (Store.mem_held_dropHeld.mp hh').1
      numbers_nodup := (List.nodup_cons.mp hnd).2
      numbers := fun l hl => o.numbers l (hstock.mem_iff.mpr (List.mem_cons_of_mem _ hl))
      sent := o.sent
      balance := ?_ }
  show s.numbered = s.tally.deleted + 1 + (s.afterDeletion receipt).stock.length
  have hlength := hstock.length_eq
  have hbalance := o.balance
  rw [List.length_cons] at hlength
  omega

/-- Every step keeps the books in order. -/
theorem step {now : Nat} {deed : Deed} {outcome : Option Outcome} (o : Orderly s)
    (st : Store.Step now s deed s' outcome) : Orderly s' := by
  cases st with
  | faulted => exact o.of_stock_perm o.receipts_nodup o.receipts_lt (.refl _) rfl rfl rfl
  | injected => exact o.of_stock_perm o.receipts_nodup o.receipts_lt (.refl _) rfl rfl rfl
  | sent content => exact o.append content
  | bare => exact o.reclaim now
  | observed => exact o.reclaim now
  | lost => exact o.reclaim now
  | taken most => exact (o.reclaim now).takeBatch now most
  | renewed d => exact (o.reclaim now).afterRenewal now d.receipt
  | returned d h _ found => exact (o.reclaim now).afterReturn found
  | deleted d h _ found => exact (o.reclaim now).afterDeletion found

/-- A message is held once: its id tells the lease. -/
theorem eq_of_id (o : Orderly s) {h h' : Held} (hh : h ∈ s.held) (hh' : h' ∈ s.held)
    (hid : s.idOf h.message = s.idOf h'.message) : h = h' := by
  -- Held messages are part of the stock, so their numbers are distinct as well.
  have hnd : (s.held.map fun h => h.message.number).Nodup := by
    have hnumbers := o.numbers_nodup
    rw [Store.stock, Store.messages, List.map_append, List.map_append] at hnumbers
    have hright := (List.nodup_append.mp hnumbers).2.1
    rwa [List.map_map, List.map_map] at hright
  exact List.inj_on_of_nodup_map hnd hh hh' (Store.idOf_inj.mp hid)

end Orderly

/-- The books of every reachable store are in order. -/
theorem Shuffled.orderly {name : String} {lease : Nat} {past : List Entry} {s : Store}
    (h : Shuffled name lease past s) : Orderly s := by
  induction h using Shuffled.steps with
  | start => exact .empty name lease
  | step _ _ same _ st ih => exact (ih.withHeld same).step st

/-- What a step does to the stock: it keeps it, adds what is sent, or takes out the message
that is held under the receipt of a deletion. -/
theorem Store.Step.stock_cases {now : Nat} {s s' : Store} {deed : Deed}
    {outcome : Option Outcome} (o : Orderly s) (st : Store.Step now s deed s' outcome) :
    s'.stock.Perm s.stock ∨
      (∃ content, deed = .attempt (.send content) ∧
        s'.stock.Perm ((s.numbered + 1, content) :: s.stock)) ∨
      ∃ d h, deed = .attempt (.delete d) ∧ h ∈ s.held ∧ h.receipt = d.receipt ∧
        s.stock.Perm (h.message.label :: s'.stock) := by
  have hback := Store.stock_reclaim now s
  cases st with
  | faulted => exact Or.inl (.refl _)
  | injected => exact Or.inl (.refl _)
  | sent content => exact Or.inr (Or.inl ⟨content, rfl, Store.stock_append content s⟩)
  | bare => exact Or.inl hback
  | observed => exact Or.inl hback
  | lost => exact Or.inl hback
  | taken most => exact Or.inl ((Store.stock_takeBatch now most _).trans hback)
  | renewed d =>
    rw [Store.stock_afterRenewal]
    exact Or.inl hback
  | returned d h _ found =>
    exact Or.inl ((Store.stock_afterReturn (o.reclaim now).receipts_nodup found).trans hback)
  | deleted d h _ found =>
    obtain ⟨hh, hr⟩ := Store.mem_of_find? found
    refine Or.inr (Or.inr ⟨d, h, rfl, (Store.mem_held_reclaim.mp hh).1, hr, ?_⟩)
    exact hback.symm.trans (Store.stock_afterDeletion (o.reclaim now).receipts_nodup found)

/-! ### Deliveries on record -/

/-- Every delivery has a receipt of its own, and what is held was handed out. -/
structure Traced (past : List Entry) (s : Store) : Prop where
  /-- Only receipts that were handed out are on record. -/
  receipts_lt : ∀ d ∈ handedOut past, d.receipt < s.receipts
  /-- No receipt was handed out twice. -/
  receipts_nodup : ((handedOut past).map Delivery.receipt).Nodup
  /-- A held message was handed out under its id and with its content. -/
  held : ∀ h ∈ s.held, ⟨h.receipt, s.idOf h.message, h.message.content⟩ ∈ handedOut past

namespace Traced
variable {past : List Entry} {s s' : Store}

/-- A deed that hands nothing out and holds nothing new keeps the deliveries on record. -/
theorem of_held {e : Entry} (t : Traced past s) (hnone : e.handedOut = [])
    (hreceipts : s'.receipts = s.receipts) (hname : s'.name = s.name)
    (hheld : ∀ h' ∈ s'.held, ∃ h ∈ s.held, h.receipt = h'.receipt ∧ h.message = h'.message) :
    Traced (e :: past) s' := by
  have hpast : handedOut (e :: past) = handedOut past := by
    rw [handedOut_cons, hnone, List.nil_append]
  refine ⟨?_, ?_, ?_⟩
  · rw [hpast, hreceipts]
    exact t.receipts_lt
  · rw [hpast]
    exact t.receipts_nodup
  · intro h' hh'
    obtain ⟨h, hh, hr, hm⟩ := hheld h' hh'
    rw [hpast, ← hr, ← hm]
    unfold Store.idOf
    rw [hname]
    exact t.held h hh

theorem withHeld {held : List Held} (t : Traced past s) (same : held.Perm s.held) :
    Traced past (s.withHeld held) :=
  { t with held := fun h hh => t.held h (same.mem_iff.mp hh) }

/-- A batch goes on record. -/
theorem takeBatch {now most : Nat} (t : Traced past s) :
    Traced
      (⟨now, .attempt (.take most), some (.answered (.ok (.batch
        (s.deliveriesOf ((s.reclaim now).batch most)))))⟩ :: past)
      (((s.reclaim now).withoutBatch most).handOver now ((s.reclaim now).batch most)) where
  receipts_lt d hd := by
    rw [handedOut_cons] at hd
    rcases List.mem_append.mp hd with hd | hd
    · obtain ⟨h, hh, hr, -, -⟩ := Store.mem_deliveriesOf now hd
      exact hr ▸ (Store.mem_leasesOf hh).2.1
    · exact Nat.lt_of_lt_of_le (t.receipts_lt d hd) (Nat.le_add_right _ _)
  receipts_nodup := by
    show ((s.deliveriesOf ((s.reclaim now).batch most) ++ handedOut past).map _).Nodup
    rw [List.map_append, Store.map_receipt_deliveriesOf, List.nodup_append]
    refine ⟨List.nodup_range', t.receipts_nodup, fun r hr r' hr' => ?_⟩
    obtain ⟨d, hd, rfl⟩ := List.mem_map.mp hr'
    have hlt := t.receipts_lt d hd
    have hge : s.receipts ≤ r := (List.mem_range'_1.mp hr).1
    omega
  held h hh := by
    refine List.mem_append.mpr ?_
    rcases List.mem_append.mp hh with hh | hh
    · exact Or.inr (t.held h (Store.mem_held_reclaim.mp hh).1)
    · exact Or.inl (Store.mem_leasesOf hh).2.2.2

/-- Every step keeps the deliveries on record. -/
theorem step {now : Nat} {deed : Deed} {outcome : Option Outcome} (t : Traced past s)
    (st : Store.Step now s deed s' outcome) : Traced (⟨now, deed, outcome⟩ :: past) s' := by
  have hreclaim : ∀ h' ∈ (s.reclaim now).held,
      ∃ h ∈ s.held, h.receipt = h'.receipt ∧ h.message = h'.message :=
    fun h' hh' => ⟨h', (Store.mem_held_reclaim.mp hh').1, rfl, rfl⟩
  -- Only a batch puts something new on record.
  cases st with
  | faulted => exact t.of_held rfl rfl rfl fun h hh => ⟨h, hh, rfl, rfl⟩
  | injected => exact t.of_held rfl rfl rfl fun h hh => ⟨h, hh, rfl, rfl⟩
  | sent => exact t.of_held rfl rfl rfl fun h hh => ⟨h, hh, rfl, rfl⟩
  | bare => exact t.of_held rfl rfl rfl hreclaim
  | observed => exact t.of_held rfl rfl rfl hreclaim
  | lost => exact t.of_held rfl rfl rfl hreclaim
  | taken most => exact t.takeBatch
  | renewed d =>
    refine t.of_held rfl rfl rfl fun h' hh' => ?_
    obtain ⟨h, hh, rfl⟩ := Store.mem_held_setExpiry.mp hh'
    refine ⟨h, (Store.mem_held_reclaim.mp hh).1, ?_⟩
    split <;> exact ⟨rfl, rfl⟩
  | returned d h =>
    exact t.of_held rfl rfl rfl fun h' hh' => hreclaim h' (Store.mem_held_dropHeld.mp hh').1
  | deleted d h =>
    exact t.of_held rfl rfl rfl fun h' hh' => hreclaim h' (Store.mem_held_dropHeld.mp hh').1

/-- Two deliveries on record under one receipt are one delivery. -/
theorem eq_of_receipt (t : Traced past s) {d d' : Delivery} (hd : d ∈ handedOut past)
    (hd' : d' ∈ handedOut past) (hr : d.receipt = d'.receipt) : d = d' :=
  List.inj_on_of_nodup_map t.receipts_nodup hd hd' hr

end Traced

/-- Every reachable store has its deliveries on record. -/
theorem Shuffled.traced {name : String} {lease : Nat} {past : List Entry} {s : Store}
    (h : Shuffled name lease past s) : Traced past s := by
  induction h using Shuffled.steps with
  | start => exact ⟨by simp [handedOut], List.nodup_nil, by simp [Store.empty]⟩
  | step _ _ same _ st ih => exact (ih.withHeld same).step st

end Leasework.Queue
