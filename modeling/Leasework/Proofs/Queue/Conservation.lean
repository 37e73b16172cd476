import Leasework.Proofs.Queue.Orderly

/-!
# `Leasework.Proofs.Queue.Conservation`: no message is lost, made up or changed

A message of a store is visible or held, and every operation moves messages between the
two. Expiry moves them as well, as a side effect of whatever looks at the store next.
`Shuffled.conserved` says that none of this loses or doubles a message, whoever holds which
receipts, in whatever order things happen and in whatever order the leases are kept:

* the ids of all messages are pairwise distinct, and each is the name of the store with a
  number that has been handed out;
* the tally balances: what was sent is still there or was deleted;
* a message says what was sent under its number;
* the id of a deleted message never comes back.

`Faithful` is the invariant that carries the last two. It stands on `Orderly`, because
numbers have to be distinct for a deletion to take its number out of the stock.
-/

set_option autoImplicit false

namespace Leasework.Queue

/-- A store says what its history says: every message has the content that was sent under
its number, and the number of a deleted message is no longer in stock. -/
structure Faithful (past : List Entry) (s : Store) : Prop where
  /-- Every content that was sent got a number. -/
  length : (contentsSent past).length = s.numbered
  /-- A message says what was sent under its number. -/
  content : ∀ l ∈ s.stock, (contentsSent past)[l.1 - 1]? = some l.2
  /-- A deletion took out the message that had been handed out under its receipt. -/
  gone : ∀ d ∈ deletedVia past, ∃ (n : Nat) (content : String), n ≤ s.numbered ∧
    n ∉ s.stock.map Prod.fst ∧
    ⟨d.receipt, s.name ++ "-" ++ toString n, content⟩ ∈ handedOut past

namespace Faithful
variable {past : List Entry} {s s' : Store}

/-- Only the numbers and the stock of a store matter. -/
theorem of_perm (f : Faithful past s) (hnumbered : s'.numbered = s.numbered)
    (hname : s'.name = s.name) (hstock : s'.stock.Perm s.stock) : Faithful past s' where
  length := hnumbered ▸ f.length
  content l hl := f.content l (hstock.mem_iff.mp hl)
  gone d hd := by
    obtain ⟨n, content, hle, hnot, hmem⟩ := f.gone d hd
    refine ⟨n, content, hnumbered ▸ hle, fun hn => ?_, hname ▸ hmem⟩
    exact hnot ((hstock.map Prod.fst).mem_iff.mp hn)

/-- A deed that sends and deletes nothing goes on record. -/
theorem quiet {e : Entry} (f : Faithful past s) (hsent : e.sent? = none)
    (hdeleted : e.deletedVia? = none) : Faithful (e :: past) s := by
  have hcontents : contentsSent (e :: past) = contentsSent past := by
    rw [contentsSent, List.filterMap_cons_none hsent, contentsSent]
  have hdeletions : deletedVia (e :: past) = deletedVia past :=
    List.filterMap_cons_none hdeleted
  refine ⟨hcontents ▸ f.length, hcontents ▸ f.content, fun d hd => ?_⟩
  obtain ⟨n, content, hle, hnot, hmem⟩ := f.gone d (hdeletions ▸ hd)
  exact ⟨n, content, hle, hnot, handedOut_cons e past ▸ List.mem_append_right _ hmem⟩

/-- A deed that sends and deletes nothing keeps the stock. -/
theorem of_stock_perm {e : Entry} (f : Faithful past s) (hsent : e.sent? = none)
    (hdeleted : e.deletedVia? = none) (hnumbered : s'.numbered = s.numbered)
    (hname : s'.name = s.name) (hstock : s'.stock.Perm s.stock) : Faithful (e :: past) s' :=
  (f.of_perm hnumbered hname hstock).quiet hsent hdeleted

theorem withHeld {held : List Held} (f : Faithful past s) (same : held.Perm s.held) :
    Faithful past (s.withHeld held) := f.of_perm rfl rfl (Store.stock_withHeld same)

theorem append {now : Nat} (content : String) (o : Orderly s) (f : Faithful past s) :
    Faithful (⟨now, .attempt (.send content), some (.answered (.ok .done))⟩ :: past)
      (s.append content).signal := by
  have hstock := Store.stock_append content s
  have hpast : contentsSent
      (⟨now, .attempt (.send content), some (.answered (.ok .done))⟩ :: past)
        = contentsSent past ++ [content] := List.reverse_cons
  refine ⟨?_, fun l hl => ?_, fun d hd => ?_⟩
  · rw [hpast, List.length_append, f.length]
    rfl
  · rw [hpast]
    rcases List.mem_cons.mp (hstock.mem_iff.mp hl) with rfl | hl
    · rw [Nat.add_sub_cancel, ← f.length, List.getElem?_concat_length]
    · -- Older numbers lie within the contents that were sent before.
      have hnumber := o.numbers l hl
      rw [List.getElem?_append_left (by rw [f.length]; omega)]
      exact f.content l hl
  · obtain ⟨n, c, hle, hnot, hmem⟩ := f.gone d hd
    refine ⟨n, c, Nat.le_succ_of_le hle, fun hn => ?_, hmem⟩
    rcases List.mem_cons.mp ((hstock.map Prod.fst).mem_iff.mp hn) with he | hn
    · have he : n = s.numbered + 1 := he
      omega
    · exact hnot hn

theorem delete {now : Nat} {d : Delivery} {h : Held} (o : Orderly s) (t : Traced past s)
    (f : Faithful past s) (found : (s.reclaim now).find? d.receipt = some h) :
    Faithful (⟨now, .attempt (.delete d), some (.answered (.ok .done))⟩ :: past)
      ((s.reclaim now).afterDeletion d.receipt) := by
  have or := o.reclaim now
  have hstock := Store.stock_afterDeletion or.receipts_nodup found
  have hback := Store.stock_reclaim now s
  have hnd := (hstock.map Prod.fst).nodup_iff.mp or.numbers_nodup
  obtain ⟨hheld, hr⟩ := Store.mem_of_find? found
  refine ⟨f.length, fun l hl => ?_, fun d' hd' => ?_⟩
  · exact f.content l (hback.mem_iff.mp (hstock.mem_iff.mpr (List.mem_cons_of_mem _ hl)))
  -- The message that goes now, and those that went before: all their numbers are out of stock.
  · rcases List.mem_cons.mp hd' with rfl | hd'
    · refine ⟨h.message.number, h.message.content, ?_, (List.nodup_cons.mp hnd).1, ?_⟩
      · exact (or.numbers h.message.label (hstock.mem_iff.mpr List.mem_cons_self)).2
      · rw [← hr]
        exact t.held h (Store.mem_held_reclaim.mp hheld).1
    · obtain ⟨n, c, hle, hnot, hmem⟩ := f.gone d' hd'
      refine ⟨n, c, hle, fun hn => hnot ?_, hmem⟩
      rw [← (hback.map Prod.fst).mem_iff, (hstock.map Prod.fst).mem_iff]
      exact List.mem_cons_of_mem _ hn

/-- Every step keeps a store faithful to its history. -/
theorem step {now : Nat} {deed : Deed} {outcome : Option Outcome} (o : Orderly s)
    (t : Traced past s) (f : Faithful past s) (st : Store.Step now s deed s' outcome) :
    Faithful (⟨now, deed, outcome⟩ :: past) s' := by
  have hback := Store.stock_reclaim now s
  cases st with
  | faulted request => cases request <;> exact f.of_stock_perm rfl rfl rfl rfl (.refl _)
  | injected => exact f.of_stock_perm rfl rfl rfl rfl (.refl _)
  | sent content => exact f.append content o
  | bare => exact f.of_stock_perm rfl rfl rfl rfl hback
  | observed => exact f.of_stock_perm rfl rfl rfl rfl hback
  | lost request => cases request <;> exact f.of_stock_perm rfl rfl rfl rfl hback
  | taken most =>
    exact f.of_stock_perm rfl rfl rfl rfl
      ((Store.stock_takeBatch now most (s.reclaim now)).trans hback)
  | renewed d =>
    refine f.of_stock_perm rfl rfl rfl rfl ?_
    rw [Store.stock_afterRenewal]
    exact hback
  | returned d h _ found =>
    exact f.of_stock_perm rfl rfl rfl rfl
      ((Store.stock_afterReturn (o.reclaim now).receipts_nodup found).trans hback)
  | deleted d h _ found => exact f.delete o t found

end Faithful

section
variable {name : String} {lease : Nat} {past : List Entry} {s : Store}

/-- Every reachable store is faithful to its history. -/
theorem Shuffled.faithful (h : Shuffled name lease past s) : Faithful past s := by
  induction h using Shuffled.steps with
  | start =>
    exact ⟨rfl, by simp [Store.stock, Store.messages, Store.empty], by simp [deletedVia]⟩
  | step before _ same _ st ih =>
    exact (ih.withHeld same).step (before.orderly.withHeld same) (before.traced.withHeld same) st

/-- A label in stock belongs to a message. -/
theorem Store.label_mem_stock {m : Message} (hm : m ∈ s.messages) : m.label ∈ s.stock :=
  List.mem_map.mpr ⟨m, hm, rfl⟩

/-- A store has lost, doubled and changed nothing of what its history put into it. -/
structure Conserved (name : String) (past : List Entry) (s : Store) : Prop where
  /-- No two messages, visible or held, have one id. -/
  ids_nodup : (s.messages.map s.idOf).Nodup
  /-- An id is the name of the store and a number that was handed out, and the message says
  what was sent under that number. -/
  ids_content : ∀ m ∈ s.messages, ∃ k, 1 ≤ k ∧ k ≤ s.numbered ∧
    s.idOf m = name ++ "-" ++ toString k ∧ (contentsSent past)[k - 1]? = some m.content
  /-- Every number went to a message that was sent. -/
  sent : s.tally.sent = s.numbered
  /-- What was sent is visible, held or deleted. -/
  balance : s.numbered = s.tally.deleted + s.visible.length + s.held.length
  /-- The id of a deleted message is gone for good. -/
  deleted : ∀ d ∈ deletedVia past, d ∈ handedOut past → ∀ m ∈ s.messages, s.idOf m ≠ d.id

/-- Conservation, in every state that a store can reach, however its leases are ordered. -/
theorem Shuffled.conserved (h : Shuffled name lease past s) : Conserved name past s where
  ids_nodup := by
    -- Ids are distinct because numbers are.
    have hnumbers : (s.messages.map Message.number).Nodup := by
      have hnd := h.orderly.numbers_nodup
      rwa [Store.stock, List.map_map] at hnd
    rw [List.Nodup, List.pairwise_map] at hnumbers ⊢
    exact hnumbers.imp fun hne he => hne (Store.idOf_inj.mp he)
  ids_content m hm := by
    have hlabel := Store.label_mem_stock hm
    obtain ⟨hle, hge⟩ := h.orderly.numbers m.label hlabel
    exact ⟨m.number, hle, hge, by rw [Store.idOf, h.name_lease.1],
      h.faithful.content m.label hlabel⟩
  sent := h.orderly.sent
  balance := by
    rw [Nat.add_assoc, ← Store.length_stock]
    exact h.orderly.balance
  deleted d hd hout m hm hid := by
    obtain ⟨n, c, -, hnot, hmem⟩ := h.faithful.gone d hd
    -- The deletion went through the one delivery that has this receipt.
    have hsame := h.traced.eq_of_receipt hout hmem rfl
    refine hnot (List.mem_map.mpr ⟨m.label, Store.label_mem_stock hm, ?_⟩)
    have hname : d.id = s.idOf ⟨n, c, 0⟩ := by rw [hsame]; rfl
    exact Store.idOf_inj.mp (hid.trans hname)

/-- Two messages are sent, the lease of the first one expires unnoticed, both are taken, the
receipt that was lost is tried, and the first message is deleted through the second one. -/
def redelivery : List (Nat × Deed) :=
  [(9, .observe), (8, .attempt (.delete ⟨1, "q-1", "a"⟩)), (7, .attempt (.delete ⟨0, "q-1", "a"⟩)),
    (7, .attempt (.take 2)), (1, .attempt (.take 1)), (0, .attempt (.send "b")),
    (0, .attempt (.send "a"))]

/-- Conservation over a redelivery: one message is deleted, and the other one is held. -/
theorem conserved_redelivery :
    Conserved "q" (Store.replay "q" 5 redelivery).1 (Store.replay "q" 5 redelivery).2 ∧
      (deletedVia (Store.replay "q" 5 redelivery).1).length = 1 ∧
      (Store.replay "q" 5 redelivery).2.held.length = 1 :=
  ⟨(History.replay "q" 5 redelivery (by decide)).shuffled.conserved, by decide, by decide⟩

end

end Leasework.Queue
