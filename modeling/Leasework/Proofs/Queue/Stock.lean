import Leasework.Queue.Call

/-!
# `Leasework.Proofs.Queue.Stock`: what a store has in stock

Every operation on a store moves messages between the visible ones and the held ones.
The *stock* forgets where a message is and how often it has been delivered: it lists the
number and the content of every message. Up to the order, reclaiming, taking and giving
back keep the stock, sending adds to it, and deleting takes one message out.

* `deliverAll_eq` gives a delivery in closed form: the batch is held under the next
  receipts, one after the other.
* `held_split` splits the held messages at a receipt. It needs receipts that are pairwise
  distinct, and is the one place where that matters to the stock.
-/

set_option autoImplicit false

namespace Leasework.Queue

/-- What never changes about a message: its number and its content. -/
def Message.label (m : Message) : Nat × String := (m.number, m.content)

namespace Store

/-- The messages of a store, visible or held. -/
def messages (s : Store) : List Message := s.visible ++ s.held.map Held.message

/-- The number and the content of every message. -/
def stock (s : Store) : List (Nat × String) := s.messages.map Message.label

/-- The store with its held messages rearranged, or others in their place. -/
def withHeld (held : List Held) (s : Store) : Store := { s with held := held }

/-- Rearranging leases keeps every message. -/
theorem messages_withHeld {s : Store} {held : List Held} (same : held.Perm s.held) :
    (s.withHeld held).messages.Perm s.messages := (same.map _).append_left _

/-- Rearranging leases keeps the stock. -/
theorem stock_withHeld {s : Store} {held : List Held} (same : held.Perm s.held) :
    (s.withHeld held).stock.Perm s.stock := (messages_withHeld same).map _

/-- Two messages of a store have the same id only when they have the same number: the
decimal digits of a number say which number it is. -/
theorem idOf_inj {s : Store} {m m' : Message} : s.idOf m = s.idOf m' ↔ m.number = m'.number := by
  constructor
  · intro h
    unfold idOf at h
    -- The name and the hyphen are the same in front, so the digits are the same.
    have hdigits := String.ofList_injective
      ((String.append_right_inj (s.name ++ "-")).mp h)
    rw [← Nat.ofDigitChars_ten_toDigits (n := m.number), hdigits,
      Nat.ofDigitChars_ten_toDigits]
  · intro h
    unfold idOf
    rw [h]

/-! ### Reclaiming and leases -/

section Leases
variable (now : Nat) (s : Store)

/-- A message is held after reclaiming when it was held and its lease still lasts. -/
theorem mem_held_reclaim {now : Nat} {s : Store} {h : Held} :
    h ∈ (s.reclaim now).held ↔ h ∈ s.held ∧ now < h.expiry := by
  simp [held_reclaim]

/-- What is held has expired, or stays held. -/
theorem held_perm_reclaim :
    ((s.held.filter fun h => h.expiry ≤ now) ++ (s.reclaim now).held).Perm s.held := by
  have hnot : (fun h : Held => decide (now < h.expiry)) = fun h => !decide (h.expiry ≤ now) := by
    funext h
    rw [← decide_not]
    exact decide_eq_decide.mpr Nat.not_le.symm
  rw [held_reclaim, hnot]
  exact List.filter_append_perm _ _

/-- Reclaiming keeps every message. -/
theorem messages_reclaim : (s.reclaim now).messages.Perm s.messages := by
  unfold messages
  rw [visible_reclaim]
  -- The reclaimed messages stand in front, and the others were behind all visible ones.
  refine ((List.reverse_perm _).append_right _ |>.append_right _).trans ?_
  rw [List.append_assoc]
  refine List.perm_append_comm_assoc _ _ _ |>.trans (List.Perm.append_left _ ?_)
  rw [← List.map_append]
  exact (held_perm_reclaim now s).map _

/-- Reclaiming keeps the stock. -/
theorem stock_reclaim : (s.reclaim now).stock.Perm s.stock := (messages_reclaim now s).map _

end Leases

/-- Distinct receipts: what is found under a receipt is held alone under it. Nothing before it has
the receipt, because it is found first, and nothing after it does, because receipts are distinct. -/
theorem held_split {s : Store} {receipt : Nat} {h : Held}
    (hnd : (s.held.map Held.receipt).Nodup) (hf : s.find? receipt = some h) :
    ∃ earlier later, s.held = earlier ++ h :: later ∧ h.receipt = receipt ∧
      ∀ h' ∈ earlier ++ later, h'.receipt ≠ receipt := by
  obtain ⟨hr, as, bs, heq, has⟩ := List.find?_eq_some_iff_append.mp hf
  have hr : h.receipt = receipt := of_decide_eq_true hr
  rw [heq, List.map_append, List.map_cons, List.nodup_append, List.nodup_cons] at hnd
  refine ⟨as, bs, heq, hr, fun h' hh' => ?_⟩
  rcases List.mem_append.mp hh' with ha | hb
  · simpa using has h' ha
  · exact fun he => hnd.2.1.1 (List.mem_map.mpr ⟨h', hb, he.trans hr.symm⟩)

/-- What is held alone under a receipt is all that goes when the receipt is dropped. -/
theorem held_dropHeld {s : Store} {receipt : Nat} {h : Held} {earlier later : List Held}
    (heq : s.held = earlier ++ h :: later) (hr : h.receipt = receipt)
    (alone : ∀ h' ∈ earlier ++ later, h'.receipt ≠ receipt) :
    (s.dropHeld receipt).held = earlier ++ later := by
  unfold dropHeld
  simp only [heq, List.filter_append, List.filter_cons, hr, ne_eq, not_true_eq_false,
    decide_false, Bool.false_eq_true, if_false]
  rw [← List.filter_append]
  exact List.filter_eq_self.mpr fun h' hh' => by simpa using alone h' hh'

/-- Distinct receipts: the message found under a receipt is the one that is dropped. -/
theorem held_perm_dropHeld {s : Store} {receipt : Nat} {h : Held}
    (hnd : (s.held.map Held.receipt).Nodup) (hf : s.find? receipt = some h) :
    s.held.Perm (h :: (s.dropHeld receipt).held) := by
  obtain ⟨earlier, later, heq, hr, alone⟩ := held_split hnd hf
  rw [held_dropHeld heq hr alone, heq]
  exact List.perm_middle

/-- What is found under a receipt is held under it. -/
theorem mem_of_find? {s : Store} {receipt : Nat} {h : Held} (hf : s.find? receipt = some h) :
    h ∈ s.held ∧ h.receipt = receipt :=
  ⟨List.mem_of_find?_eq_some hf, by simpa using List.find?_some hf⟩

/-- Nothing is found under a receipt when nothing is held under it. -/
theorem find?_eq_none {s : Store} {receipt : Nat} :
    s.find? receipt = none ↔ ∀ h ∈ s.held, h.receipt ≠ receipt := by
  simp [find?]

/-- What stays held when a receipt is dropped. -/
theorem mem_held_dropHeld {s : Store} {receipt : Nat} {h : Held} :
    h ∈ (s.dropHeld receipt).held ↔ h ∈ s.held ∧ h.receipt ≠ receipt := by
  simp [dropHeld]

/-- What is held when the lease of a receipt has been set: the same messages. -/
theorem mem_held_setExpiry {s : Store} {receipt expiry : Nat} {h' : Held} :
    h' ∈ (s.setExpiry receipt expiry).held
      ↔ ∃ h ∈ s.held, (if h.receipt = receipt then { h with expiry := expiry } else h) = h' := by
  simp [setExpiry]

/-- What is held alone under a receipt is all that changes when its lease is set. -/
theorem held_setExpiry {s : Store} {receipt : Nat} (expiry : Nat) {h : Held}
    {earlier later : List Held} (heq : s.held = earlier ++ h :: later) (hr : h.receipt = receipt)
    (alone : ∀ h' ∈ earlier ++ later, h'.receipt ≠ receipt) :
    (s.setExpiry receipt expiry).held = earlier ++ { h with expiry := expiry } :: later := by
  have unmoved (part : List Held) (hpart : ∀ h' ∈ part, h' ∈ earlier ++ later) :
      part.map (fun h => if h.receipt = receipt then { h with expiry := expiry } else h)
        = part := by
    refine (List.map_congr_left fun h' hh' => ?_).trans (List.map_id part)
    exact if_neg (alone h' (hpart h' hh'))
  unfold setExpiry
  simp only [heq, List.map_append, List.map_cons, if_pos hr]
  rw [unmoved earlier fun _ => List.mem_append_left _,
    unmoved later fun _ => List.mem_append_right _]

/-- Setting a lease changes no message and no receipt. -/
theorem map_held_setExpiry {α : Type} (s : Store) (receipt expiry : Nat) (f : Held → α)
    (hf : ∀ (h : Held) (e : Nat), f { h with expiry := e } = f h) :
    (s.setExpiry receipt expiry).held.map f = s.held.map f := by
  unfold setExpiry
  rw [List.map_map]
  refine List.map_congr_left fun h _ => ?_
  show f (if h.receipt = receipt then { h with expiry := expiry } else h) = f h
  split
  · exact hf h expiry
  · rfl

/-! ### Deliveries in closed form -/

/-- The leases that delivering a batch begins: the receipts follow one another. -/
def leasesOf (now : Nat) (s : Store) (batch : List Message) : List Held :=
  batch.mapIdx fun i m =>
    ⟨s.receipts + i, { m with deliveries := m.deliveries + 1 }, now + s.lease⟩

/-- What the consumer gets for a batch. -/
def deliveriesOf (s : Store) (batch : List Message) : List Delivery :=
  batch.mapIdx fun i m => ⟨s.receipts + i, s.idOf m, m.content⟩

/-- The store after a batch has been delivered. -/
def handOver (now : Nat) (s : Store) (batch : List Message) : Store :=
  { s with
    held := s.held ++ s.leasesOf now batch
    receipts := s.receipts + batch.length
    tally :=
      { s.tally with
        received := s.tally.received + batch.length
        redelivered := s.tally.redelivered + batch.countP fun m => 0 < m.deliveries } }

/-- Delivering a batch one by one begins all its leases at once. -/
theorem deliverAll_eq (now : Nat) (batch : List Message) (s : Store) :
    deliverAll now batch s = (s.handOver now batch, s.deliveriesOf batch) := by
  induction batch generalizing s with
  | nil => simp [deliverAll, handOver, leasesOf, deliveriesOf]
  | cons m rest ih =>
    -- The first message takes the next receipt, and the others start from the one after it.
    have hleases : (s.deliver now m).held ++ (s.deliver now m).leasesOf now rest
        = s.held ++ s.leasesOf now (m :: rest) := by
      simp [deliver, leasesOf, Nat.add_assoc, Nat.add_comm 1]
    have hdeliveries : s.deliveryOf m :: (s.deliver now m).deliveriesOf rest
        = s.deliveriesOf (m :: rest) := by
      simp [deliver, deliveriesOf, deliveryOf, idOf, Nat.add_assoc, Nat.add_comm 1]
    have hover : (s.deliver now m).handOver now rest = s.handOver now (m :: rest) := by
      unfold handOver
      rw [hleases]
      simp only [deliver, List.length_cons, List.countP_cons, decide_eq_true_eq,
        Store.mk.injEq, Tally.mk.injEq, true_and, and_true]
      omega
    simp only [deliverAll, ih, hover, hdeliveries]

section HandOver
variable (now : Nat) (s : Store) (batch : List Message)

/-- The receipts of a batch follow one another. -/
theorem map_receipt_leasesOf :
    (s.leasesOf now batch).map Held.receipt = List.range' s.receipts batch.length := by
  refine List.ext_getElem (by simp [leasesOf]) fun i h₁ h₂ => ?_
  simp [leasesOf]

/-- Deliveries and leases of a batch belong together, one by one. -/
theorem map_receipt_deliveriesOf :
    (s.deliveriesOf batch).map Delivery.receipt = List.range' s.receipts batch.length := by
  refine List.ext_getElem (by simp [deliveriesOf]) fun i h₁ h₂ => ?_
  simp [deliveriesOf]

/-- The labels of a batch are those of its leases. -/
theorem map_label_leasesOf :
    (s.leasesOf now batch).map (fun h => h.message.label) = batch.map Message.label := by
  refine List.ext_getElem (by simp [leasesOf]) fun i h₁ h₂ => ?_
  simp [leasesOf, Message.label]

end HandOver

/-- A lease of a batch begins now, at a new receipt, and its delivery names its message. -/
theorem mem_leasesOf {now : Nat} {s : Store} {batch : List Message} {h : Held}
    (hh : h ∈ s.leasesOf now batch) :
    s.receipts ≤ h.receipt ∧ h.receipt < s.receipts + batch.length ∧
      h.expiry = now + s.lease ∧
      ⟨h.receipt, s.idOf h.message, h.message.content⟩ ∈ s.deliveriesOf batch := by
  obtain ⟨i, hi, rfl⟩ := List.mem_mapIdx.mp hh
  refine ⟨Nat.le_add_right _ _, Nat.add_lt_add_left hi _, rfl, ?_⟩
  exact List.mem_mapIdx.mpr ⟨i, hi, rfl⟩

/-- A delivery of a batch begins a lease on the message it names. -/
theorem mem_deliveriesOf {s : Store} {batch : List Message} {d : Delivery} (now : Nat)
    (hd : d ∈ s.deliveriesOf batch) :
    ∃ h ∈ s.leasesOf now batch, h.receipt = d.receipt ∧ s.idOf h.message = d.id ∧
      h.message.content = d.content := by
  obtain ⟨i, hi, rfl⟩ := List.mem_mapIdx.mp hd
  exact ⟨_, List.mem_mapIdx.mpr ⟨i, hi, rfl⟩, rfl, rfl, rfl⟩

/-! ### What the operations do to the stock -/

/-- Uses up a fault. -/
def useFault (s : Store) (kind : FaultKind) : Store := { s with faults := s.faults.use kind }

/-- The store after the lease of a receipt has been renewed. -/
def afterRenewal (now receipt : Nat) (s : Store) : Store :=
  { s.setExpiry receipt (now + s.lease) with
    tally := { s.tally with renewed := s.tally.renewed + 1 } }

/-- The store after a held message has been given back. -/
def afterReturn (h : Held) (s : Store) : Store :=
  signal
    { s.dropHeld h.receipt with
      visible := h.message :: s.visible
      tally := { s.tally with returned := s.tally.returned + 1 } }

/-- The store after the message of a receipt has been deleted. -/
def afterDeletion (receipt : Nat) (s : Store) : Store :=
  { s.dropHeld receipt with tally := { s.tally with deleted := s.tally.deleted + 1 } }

/-- The batch that an attempt to take messages gets, expired leases reclaimed. -/
def batch (most : Nat) (s : Store) : List Message := s.visible.take (atLeastOne most)

/-- The store without the batch that is being taken. -/
def withoutBatch (most : Nat) (s : Store) : Store :=
  { s with visible := s.visible.drop (atLeastOne most) }

/-- A new message joins the stock. -/
theorem stock_append (content : String) (s : Store) :
    (s.append content).signal.stock.Perm ((s.numbered + 1, content) :: s.stock) := by
  simp only [stock, messages, append, signal, List.map_append, List.map_cons,
    List.append_assoc, List.singleton_append]
  exact List.perm_middle

/-- Delivering a batch moves its messages. -/
theorem stock_takeBatch (now most : Nat) (s : Store) :
    ((s.withoutBatch most).handOver now (s.batch most)).stock.Perm s.stock := by
  have hlabels := map_label_leasesOf now (s.withoutBatch most) (s.batch most)
  have hvisible : s.visible = s.batch most ++ (s.withoutBatch most).visible :=
    (List.take_append_drop _ _).symm
  unfold stock messages
  rw [hvisible]
  -- The batch goes from the front of the visible messages to the end of the held ones.
  simp only [handOver, List.map_append, List.map_map, Function.comp_def, hlabels]
  rw [List.append_assoc]
  refine (List.perm_append_comm_assoc _ _ _).trans ?_
  rw [← List.append_assoc]
  exact List.perm_append_comm.trans (List.Perm.append_left _ List.perm_append_comm)

/-- A renewal leaves every message where it is. -/
theorem stock_afterRenewal (now receipt : Nat) (s : Store) :
    (s.afterRenewal now receipt).stock = s.stock := by
  show (s.visible ++ (s.setExpiry receipt (now + s.lease)).held.map Held.message).map _ = _
  rw [map_held_setExpiry s receipt _ Held.message fun _ _ => rfl]
  rfl

/-- Giving a message back moves it. -/
theorem stock_afterReturn {s : Store} {receipt : Nat} {h : Held}
    (hnd : (s.held.map Held.receipt).Nodup) (hf : s.find? receipt = some h) :
    (s.afterReturn h).stock.Perm s.stock := by
  have hperm := held_perm_dropHeld hnd hf
  rw [← (mem_of_find? hf).2] at hperm
  show ((h.message :: s.visible ++ (s.dropHeld h.receipt).held.map Held.message).map _).Perm
    ((s.visible ++ s.held.map Held.message).map _)
  refine List.Perm.map _ ?_
  rw [List.cons_append]
  refine List.perm_middle.symm.trans (List.Perm.append_left _ ?_)
  exact (hperm.map Held.message).symm

/-- Deleting a message takes it out of the stock. -/
theorem stock_afterDeletion {s : Store} {receipt : Nat} {h : Held}
    (hnd : (s.held.map Held.receipt).Nodup) (hf : s.find? receipt = some h) :
    s.stock.Perm (h.message.label :: (s.afterDeletion receipt).stock) := by
  have hperm := held_perm_dropHeld hnd hf
  show ((s.visible ++ s.held.map Held.message).map _).Perm
    (h.message.label :: (s.visible ++ (s.dropHeld receipt).held.map Held.message).map _)
  rw [← List.map_cons]
  refine List.Perm.map _ ?_
  refine (List.Perm.append_left _ (hperm.map Held.message)).trans ?_
  exact List.perm_middle

/-- The stock counts every message once. -/
theorem length_stock (s : Store) : s.stock.length = s.visible.length + s.held.length := by
  simp [stock, messages]

end Store

end Leasework.Queue
