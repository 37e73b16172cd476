import Leasework.Proofs.Queue.Orderly

/-!
# `Leasework.Proofs.Queue.Fencing`: when a lease is still good

A store decides by a lookup whether a delivery still holds its message, and expired leases
leave the table only when something looks at the store. `Alive` says the same thing from
the history alone: the message was neither given back nor deleted through this receipt, and
less than a lease has passed since it was delivered or last renewed.

`Shuffled.fenced` shows that the lookup answers exactly that, whatever happened in between
and however the leases are ordered. So a receipt that was lost stays lost, two receipts of
one message are never alive together, and a stale delivery changes no lease that still
lasts.

The invariant is `Accounted`: everything held expires a lease after the last entry that
refreshed it, and a receipt that is alive is held. It names a moment, because between two
deeds leases run out without a trace in the store.
-/

set_option autoImplicit false

namespace Leasework.Queue

/-- When the lease of a receipt began, or last began anew. -/
def lastRefresh? (receipt : Nat) (past : List Entry) : Option Nat :=
  (past.find? (Entry.refreshes receipt)).map Entry.now

/-- Nothing was given back or deleted through a receipt. -/
def NeverClosed (past : List Entry) (receipt : Nat) : Prop :=
  ∀ d ∈ closedVia past, d.receipt ≠ receipt

/-- A receipt still holds its message: nothing was given back or deleted through it, and its
last refresh was less than a lease ago. -/
def Alive (lease : Nat) (past : List Entry) (receipt now : Nat) : Prop :=
  NeverClosed past receipt ∧ ∃ t, lastRefresh? receipt past = some t ∧ now < t + lease

/-- An entry refreshes a receipt, or leaves the last refresh as it was. -/
theorem lastRefresh?_cons (receipt : Nat) (e : Entry) (past : List Entry) :
    lastRefresh? receipt (e :: past)
      = if e.refreshes receipt then some e.now else lastRefresh? receipt past := by
  unfold lastRefresh?
  rw [List.find?_cons]
  cases e.refreshes receipt <;> rfl

/-- An entry that refreshes other receipts, or none, leaves the last refresh as it was. -/
theorem lastRefresh?_cons_of_not_refreshes {receipt : Nat} {e : Entry}
    (h : e.refreshes receipt = false) (past : List Entry) :
    lastRefresh? receipt (e :: past) = lastRefresh? receipt past := by
  rw [lastRefresh?_cons, h]
  rfl

/-- The table of leases agrees with the history at a moment. -/
structure Accounted (lease : Nat) (past : List Entry) (s : Store) (now : Nat) : Prop where
  /-- Only receipts that were handed out are refreshed. -/
  refreshed_lt : ∀ r t, lastRefresh? r past = some t → r < s.receipts
  /-- Only receipts that were handed out are closed. -/
  closed_lt : ∀ d ∈ closedVia past, d.receipt < s.receipts
  /-- What is held is not closed, and expires a lease after its last refresh. -/
  held : ∀ h ∈ s.held, NeverClosed past h.receipt ∧
    ∃ t, lastRefresh? h.receipt past = some t ∧ h.expiry = t + lease
  /-- A receipt that is alive is held. -/
  alive : ∀ r, Alive lease past r now → ∃ h ∈ s.held, h.receipt = r

namespace Accounted
variable {lease now : Nat} {past : List Entry} {s s' : Store}

/-- Time passes. -/
theorem later {now' : Nat} (a : Accounted lease past s now) (hle : now ≤ now') :
    Accounted lease past s now' :=
  { a with
    alive := fun r ⟨hopen, t, ht, hlt⟩ => a.alive r ⟨hopen, t, ht, Nat.lt_of_le_of_lt hle hlt⟩ }

/-- A table that is kept in another order says the same. -/
theorem withHeld {held : List Held} (a : Accounted lease past s now) (same : held.Perm s.held) :
    Accounted lease past (s.withHeld held) now where
  refreshed_lt := a.refreshed_lt
  closed_lt := a.closed_lt
  held h hh := a.held h (same.mem_iff.mp hh)
  alive r hr := by
    obtain ⟨h, hh, he⟩ := a.alive r hr
    exact ⟨h, same.mem_iff.mpr hh, he⟩

/-- Reclaiming drops leases that are no longer alive. -/
theorem reclaim (a : Accounted lease past s now) : Accounted lease past (s.reclaim now) now where
  refreshed_lt := a.refreshed_lt
  closed_lt := a.closed_lt
  held h hh := a.held h (Store.mem_held_reclaim.mp hh).1
  alive r hr := by
    obtain ⟨h, hh, rfl⟩ := a.alive r hr
    obtain ⟨-, t, ht, hlt⟩ := hr
    obtain ⟨-, t', ht', hexpiry⟩ := a.held h hh
    obtain rfl : t = t' := Option.some.inj (ht.symm.trans ht')
    exact ⟨h, Store.mem_held_reclaim.mpr ⟨hh, hexpiry ▸ hlt⟩, rfl⟩

/-- After reclaiming, the lookup of a receipt finds something exactly when it is alive. -/
theorem find?_reclaim (a : Accounted lease past s now) (r : Nat) :
    (∃ h, (s.reclaim now).find? r = some h) ↔ Alive lease past r now := by
  constructor
  · intro hfound
    obtain ⟨h, hfound⟩ := hfound
    obtain ⟨hmem, rfl⟩ := Store.mem_of_find? hfound
    obtain ⟨hheld, hlt⟩ := Store.mem_held_reclaim.mp hmem
    obtain ⟨hopen, t, ht, hexpiry⟩ := a.held h hheld
    exact ⟨hopen, t, ht, hexpiry ▸ hlt⟩
  · intro hr
    obtain ⟨h, hh, he⟩ := a.reclaim.alive r hr
    cases hfound : (s.reclaim now).find? r with
    | some h' => exact ⟨h', rfl⟩
    | none => exact absurd he (Store.find?_eq_none.mp hfound h hh)

/-! ### One more entry -/

/-- An entry that refreshes and closes nothing, over a table that stays as it is. -/
theorem quiet {e : Entry} (a : Accounted lease past s now)
    (hrefresh : ∀ r, e.refreshes r = false) (hclosed : e.closedVia? = none)
    (hreceipts : s'.receipts = s.receipts) (hheld : s'.held = s.held) :
    Accounted lease (e :: past) s' now := by
  have hlast : ∀ r, lastRefresh? r (e :: past) = lastRefresh? r past :=
    fun r => lastRefresh?_cons_of_not_refreshes (hrefresh r) past
  have hpast : closedVia (e :: past) = closedVia past := List.filterMap_cons_none hclosed
  refine ⟨?_, ?_, ?_, ?_⟩
  · intro r t ht
    rw [hreceipts]
    exact a.refreshed_lt r t (hlast r ▸ ht)
  · rw [hpast, hreceipts]
    exact a.closed_lt
  · intro h hh
    rw [NeverClosed, hpast, hlast]
    exact a.held h (hheld ▸ hh)
  · intro r hr
    rw [Alive, NeverClosed, hpast, hlast] at hr
    rw [hheld]
    exact a.alive r hr

/-- An entry that closes a receipt, whose message is no longer held. -/
theorem close {e : Entry} {d : Delivery} (a : Accounted lease past s now)
    (hrefresh : ∀ r, e.refreshes r = false) (hclosed : e.closedVia? = some d)
    (hd : d.receipt < s.receipts) (hreceipts : s'.receipts = s.receipts)
    (hheld : s'.held = (s.dropHeld d.receipt).held) : Accounted lease (e :: past) s' now := by
  have hlast : ∀ r, lastRefresh? r (e :: past) = lastRefresh? r past :=
    fun r => lastRefresh?_cons_of_not_refreshes (hrefresh r) past
  have hpast : closedVia (e :: past) = d :: closedVia past := List.filterMap_cons_some hclosed
  refine ⟨?_, ?_, ?_, ?_⟩
  · intro r t ht
    rw [hreceipts]
    exact a.refreshed_lt r t (hlast r ▸ ht)
  · intro d' hd'
    rw [hreceipts]
    rw [hpast] at hd'
    rcases List.mem_cons.mp hd' with rfl | hd'
    · exact hd
    · exact a.closed_lt d' hd'
  · intro h hh
    obtain ⟨hmem, hne⟩ := Store.mem_held_dropHeld.mp (hheld ▸ hh)
    obtain ⟨hopen, hexpiry⟩ := a.held h hmem
    rw [NeverClosed, hpast, hlast]
    exact ⟨List.forall_mem_cons.mpr ⟨hne.symm, hopen⟩, hexpiry⟩
  · intro r hr
    rw [Alive, NeverClosed, hpast, hlast, List.forall_mem_cons] at hr
    obtain ⟨⟨hne, hopen⟩, hlt⟩ := hr
    obtain ⟨h, hh, rfl⟩ := a.alive r ⟨hopen, hlt⟩
    exact ⟨h, hheld ▸ Store.mem_held_dropHeld.mpr ⟨hh, hne.symm⟩, rfl⟩

/-- A batch begins leases on receipts that nobody has seen before. -/
theorem takeBatch {most : Nat} (a : Accounted lease past s now) (hlease : s.lease = lease) :
    Accounted lease
      (⟨now, .attempt (.take most), some (.answered (.ok (.batch
        (s.deliveriesOf (s.batch most)))))⟩ :: past)
      ((s.withoutBatch most).handOver now (s.batch most)) now := by
  -- The entry refreshes exactly the receipts of the new leases.
  have hrefresh : ∀ r, Entry.refreshes r ⟨now, .attempt (.take most), some (.answered (.ok
      (.batch (s.deliveriesOf (s.batch most)))))⟩ = true ↔
        ∃ h ∈ (s.withoutBatch most).leasesOf now (s.batch most), h.receipt = r := by
    intro r
    show (s.deliveriesOf (s.batch most)).any _ = true ↔ _
    rw [List.any_eq_true]
    constructor
    · intro ⟨d, hd, hr⟩
      obtain ⟨h, hh, he, -⟩ := Store.mem_deliveriesOf (s := s.withoutBatch most) now hd
      exact ⟨h, hh, he.trans (of_decide_eq_true hr)⟩
    · intro ⟨h, hh, hr⟩
      exact ⟨_, (Store.mem_leasesOf hh).2.2.2, decide_eq_true hr⟩
  have hnew : ∀ h ∈ (s.withoutBatch most).leasesOf now (s.batch most),
      s.receipts ≤ h.receipt ∧ h.receipt < s.receipts + (s.batch most).length :=
    fun h hh => ⟨(Store.mem_leasesOf hh).1, (Store.mem_leasesOf hh).2.1⟩
  refine ⟨?_, ?_, ?_, ?_⟩
  -- A receipt was refreshed by this entry or by an earlier one, in all that follows.
  · intro r t ht
    show r < s.receipts + (s.batch most).length
    rw [lastRefresh?_cons] at ht
    split at ht
    · rename_i hr
      obtain ⟨h, hh, rfl⟩ := (hrefresh r).mp hr
      exact (hnew h hh).2
    · exact Nat.lt_of_lt_of_le (a.refreshed_lt r t ht) (Nat.le_add_right _ _)
  · intro d hd
    exact Nat.lt_of_lt_of_le (a.closed_lt d hd) (Nat.le_add_right _ _)
  · intro h hh
    rw [lastRefresh?_cons]
    rcases List.mem_append.mp hh with hh | hh
    · obtain ⟨hopen, t, ht, hexpiry⟩ := a.held h hh
      refine ⟨hopen, t, ?_, hexpiry⟩
      rw [if_neg, ht]
      intro hr
      -- A lease that was there before has an older receipt.
      obtain ⟨h', hh', he⟩ := (hrefresh h.receipt).mp hr
      have hlt := a.refreshed_lt _ t ht
      have hge := (hnew h' hh').1
      omega
    · -- A new lease is open, because nothing was ever done through its receipt.
      refine ⟨fun d hd he => ?_, now, ?_, ?_⟩
      · have hlt := a.closed_lt d hd
        have hge := (hnew h hh).1
        omega
      · rw [if_pos ((hrefresh h.receipt).mpr ⟨h, hh, rfl⟩)]
      · rw [(Store.mem_leasesOf hh).2.2.1]
        exact congrArg (now + ·) hlease
  · intro r ⟨hopen, t, ht, hlt⟩
    rw [lastRefresh?_cons] at ht
    split at ht
    · rename_i hr
      obtain ⟨h, hh, he⟩ := (hrefresh r).mp hr
      exact ⟨h, List.mem_append_right _ hh, he⟩
    · obtain ⟨h, hh, he⟩ := a.alive r ⟨hopen, t, ht, hlt⟩
      exact ⟨h, List.mem_append_left _ hh, he⟩

/-- A renewal begins the lease of its receipt anew. -/
theorem renewal {d : Delivery} {h : Held} (a : Accounted lease past s now)
    (hlease : s.lease = lease) (found : s.find? d.receipt = some h) :
    Accounted lease (⟨now, .attempt (.renew d), some (.answered (.ok .done))⟩ :: past)
      (s.afterRenewal now d.receipt) now := by
  obtain ⟨hmem, hr⟩ := Store.mem_of_find? found
  have hlast : ∀ r, lastRefresh? r
      (⟨now, .attempt (.renew d), some (.answered (.ok .done))⟩ :: past)
        = if d.receipt = r then some now else lastRefresh? r past := by
    intro r
    rw [lastRefresh?_cons]
    show (if decide (d.receipt = r) = true then _ else _) = _
    simp only [decide_eq_true_eq]
  refine ⟨?_, a.closed_lt, ?_, ?_⟩
  · intro r t ht
    rw [hlast] at ht
    split at ht
    · rename_i he
      obtain ⟨-, t', ht', -⟩ := a.held h hmem
      exact a.refreshed_lt r t' (he ▸ hr ▸ ht')
    · exact a.refreshed_lt r t ht
  · intro h' hh'
    obtain ⟨h₀, hh₀, rfl⟩ := Store.mem_held_setExpiry.mp hh'
    obtain ⟨hopen, t, ht, hexpiry⟩ := a.held h₀ hh₀
    rw [hlast]
    -- The renewed lease lasts from now on, and the others last as long as they did.
    by_cases he : h₀.receipt = d.receipt
    · rw [if_pos he]
      exact ⟨hopen, now, if_pos he.symm, congrArg (now + ·) hlease⟩
    · rw [if_neg he, if_neg (Ne.symm he)]
      exact ⟨hopen, t, ht, hexpiry⟩
  · intro r ⟨hopen, t, ht, hlt⟩
    rw [hlast] at ht
    -- The receipts in the table stay what they are.
    have hkeep : ∀ h₀ ∈ s.held, ∃ h' ∈ (s.afterRenewal now d.receipt).held,
        h'.receipt = h₀.receipt := by
      intro h₀ hh₀
      refine ⟨_, Store.mem_held_setExpiry.mpr ⟨h₀, hh₀, rfl⟩, ?_⟩
      split <;> rfl
    by_cases he : d.receipt = r
    · obtain ⟨h', hh', hr'⟩ := hkeep h hmem
      exact ⟨h', hh', hr'.trans (hr.trans he)⟩
    · rw [if_neg he] at ht
      obtain ⟨h₀, hh₀, rfl⟩ := a.alive r ⟨hopen, t, ht, hlt⟩
      exact hkeep h₀ hh₀

/-- Every step keeps the table in agreement with the history. -/
theorem step {deed : Deed} {outcome : Option Outcome} (a : Accounted lease past s now)
    (hlease : s.lease = lease) (o : Orderly s) (st : Store.Step now s deed s' outcome) :
    Accounted lease (⟨now, deed, outcome⟩ :: past) s' now := by
  -- Every deed but those that a fault hits, sends and injections reclaims first.
  have a' := a.reclaim
  have hfound : ∀ {r : Nat} {h : Held}, (s.reclaim now).find? r = some h → r < s.receipts := by
    intro r h found
    obtain ⟨hmem, rfl⟩ := Store.mem_of_find? found
    exact o.receipts_lt h (Store.mem_held_reclaim.mp hmem).1
  cases st with
  | faulted request => cases request <;> exact a.quiet (fun _ => rfl) rfl rfl rfl
  | injected => exact a.quiet (fun _ => rfl) rfl rfl rfl
  | sent => exact a.quiet (fun _ => rfl) rfl rfl rfl
  | bare => exact a'.quiet (fun _ => rfl) rfl rfl rfl
  | observed => exact a'.quiet (fun _ => rfl) rfl rfl rfl
  | lost request => cases request <;> exact a'.quiet (fun _ => rfl) rfl rfl rfl
  | taken most => exact a'.takeBatch hlease
  | renewed d h _ found => exact a'.renewal hlease found
  | returned d h _ found =>
    refine a'.close (fun _ => rfl) rfl (hfound found) rfl ?_
    rw [← (Store.mem_of_find? found).2]
    rfl
  | deleted d h _ found => exact a'.close (fun _ => rfl) rfl (hfound found) rfl rfl

/-- A step refreshes no receipt that was handed out before and is not alive. -/
theorem not_refreshes {deed : Deed} {outcome : Option Outcome} {d : Delivery}
    (a : Accounted lease past s now) (t : Traced past s)
    (st : Store.Step now s deed s' outcome) (hd : d ∈ handedOut past)
    (hdead : ¬ Alive lease past d.receipt now) :
    Entry.refreshes d.receipt ⟨now, deed, outcome⟩ = false := by
  cases st with
  | faulted request => cases request <;> rfl
  | injected => rfl
  | sent => rfl
  | bare => rfl
  | observed => rfl
  | lost request => cases request <;> rfl
  | returned => rfl
  | deleted => rfl
  | taken most =>
    -- A batch has new receipts.
    refine Bool.eq_false_iff.mpr fun hr => ?_
    obtain ⟨d', hd', he⟩ := List.any_eq_true.mp hr
    obtain ⟨held, hh, hreceipt, -⟩ := Store.mem_deliveriesOf now hd'
    have hge := (Store.mem_leasesOf hh).1
    have hlt := t.receipts_lt d hd
    have he : d'.receipt = d.receipt := of_decide_eq_true he
    omega
  | renewed d' held _ found =>
    -- A renewal succeeds only through a receipt that is alive.
    refine Bool.eq_false_iff.mpr fun hr => hdead ?_
    have he : d'.receipt = d.receipt := of_decide_eq_true hr
    rw [← he]
    exact (a.find?_reclaim _).mp ⟨held, found⟩

end Accounted

/-- What was handed out stays on record. -/
theorem handedOut_append_right {past : List Entry} {d : Delivery} (later : List Entry)
    (hd : d ∈ handedOut past) : d ∈ handedOut (later ++ past) := by
  rw [handedOut, List.flatMap_append]
  exact List.mem_append_right _ hd

section
variable {name : String} {lease : Nat} {past : List Entry} {s : Store} {now : Nat}

namespace Shuffled

/-- The table of a reachable store agrees with its record, from the last deed on. -/
theorem accounted (h : Shuffled name lease past s) (hnow : ∀ e ∈ past, e.now ≤ now) :
    Accounted lease past s now := by
  induction h using Shuffled.steps generalizing now with
  | start =>
    refine ⟨?_, ?_, ?_, ?_⟩ <;> simp [lastRefresh?, closedVia, Store.empty, Alive]
  | step before _ same hle st ih =>
    have hstep := ((ih hle).withHeld same).step before.name_lease.2
      (before.orderly.withHeld same) st
    exact hstep.later (hnow _ List.mem_cons_self)

/-- A delivery that is alive holds the message that it names. -/
theorem held_of_alive (h : Shuffled name lease past s) (hnow : ∀ e ∈ past, e.now ≤ now)
    {d : Delivery} (hd : d ∈ handedOut past) (ha : Alive lease past d.receipt now) :
    ∃ held ∈ s.held, held.receipt = d.receipt ∧ s.idOf held.message = d.id := by
  obtain ⟨held, hh, hr⟩ := (h.accounted hnow).alive d.receipt ha
  have hsame := h.traced.eq_of_receipt hd (h.traced.held held hh) hr.symm
  exact ⟨held, hh, hr, by rw [hsame]⟩

/-- No two deliveries of one message are alive together. -/
theorem alive_unique (h : Shuffled name lease past s) (hnow : ∀ e ∈ past, e.now ≤ now)
    {d d' : Delivery} (hd : d ∈ handedOut past) (hd' : d' ∈ handedOut past)
    (hid : d.id = d'.id) (ha : Alive lease past d.receipt now)
    (ha' : Alive lease past d'.receipt now) : d = d' := by
  obtain ⟨held, hh, hr, hm⟩ := h.held_of_alive hnow hd ha
  obtain ⟨held', hh', hr', hm'⟩ := h.held_of_alive hnow hd' ha'
  have hsame := h.orderly.eq_of_id hh hh' ((hm.trans hid).trans hm'.symm)
  exact h.traced.eq_of_receipt hd hd' (hr.symm.trans (hsame ▸ hr'))

/-- A receipt that is not alive is never alive again. -/
theorem not_alive_later {later : List Entry} {d : Delivery} (hd : d ∈ handedOut past)
    (hdead : ¬ Alive lease past d.receipt now) :
    ∀ {s' : Store} {now' : Nat}, Shuffled name lease (later ++ past) s' →
      (∀ e ∈ later, now ≤ e.now) → now ≤ now' →
      ¬ Alive lease (later ++ past) d.receipt now' := by
  -- The induction takes the newest of the later entries off first.
  induction later with
  | nil =>
    intro s' now' _ _ hle ha
    obtain ⟨hopen, t, ht, hlt⟩ := ha
    exact hdead ⟨hopen, t, ht, by omega⟩
  | cons e rest ih =>
    intro s' now' h hlater hle ha
    rw [List.cons_append] at h ha
    obtain ⟨s₀, held, before, same, hbefore, st⟩ := h.last
    have hrest := fun e' he' => hlater e' (List.mem_cons_of_mem _ he')
    -- It was dead when the newest deed was done, and is dead at `now'` but for that deed.
    have hthen := ih before hrest (hlater _ List.mem_cons_self)
    have hnow := ih before hrest hle
    have hrefresh := ((before.accounted hbefore).withHeld same).not_refreshes
      (before.traced.withHeld same) st (handedOut_append_right rest hd) hthen
    obtain ⟨hopen, t, ht, hlt⟩ := ha
    rw [lastRefresh?_cons_of_not_refreshes hrefresh] at ht
    -- What was open with the newest deed on record was open without it.
    refine hnow ⟨fun d' hd' => hopen d' ?_, t, ht, hlt⟩
    unfold closedVia at hd' ⊢
    rw [List.filterMap_cons]
    split
    · exact hd'
    · exact List.mem_cons_of_mem _ hd'

end Shuffled

/-- What a delivery that was handed out can still do at a moment. -/
structure Fenced (name : String) (lease : Nat) (past : List Entry) (s : Store) (now : Nat)
    (d : Delivery) : Prop where
  /-- Without a fault, an attempt through it succeeds exactly when it is alive. -/
  succeeds : ∀ request, request.delivery? = some d → s.fault? request.faults = none →
    ((s.attempt now request).2 = .answered (.ok .done) ↔ Alive lease past d.receipt now)
  /-- Otherwise the lease has been lost, and the store does nothing but reclaim. -/
  lost : ∀ request, request.delivery? = some d → s.fault? request.faults = none →
    ¬ Alive lease past d.receipt now →
    s.attempt now request = (s.reclaim now, .answered (.error (.leaseLost d.id)))
  /-- No other delivery of the same message is alive beside it. -/
  alone : ∀ d' ∈ handedOut past, d'.id = d.id → Alive lease past d.receipt now →
    Alive lease past d'.receipt now → d' = d
  /-- Once it is lost it is lost for ever, whatever is done later. -/
  forever : ¬ Alive lease past d.receipt now → ∀ (later : List Entry) (s' : Store) (now' : Nat),
    Shuffled name lease (later ++ past) s' → (∀ e ∈ later, now ≤ e.now) → now ≤ now' →
    ¬ Alive lease (later ++ past) d.receipt now'
  /-- Once it is lost, no attempt through it touches a lease that still lasts. -/
  harmless : ¬ Alive lease past d.receipt now → ∀ request, request.delivery? = some d →
    ∀ h : Held, now < h.expiry → (h ∈ (s.attempt now request).1.held ↔ h ∈ s.held)

/-- An attempt through a delivery: a fault hits it, or it is decided by whether the delivery
is alive. -/
theorem Accounted.attempt_cases (a : Accounted lease past s now) {request : Request}
    {d : Delivery} (hd : request.delivery? = some d) :
    (∃ kind, s.fault? request.faults = some kind ∧
        (s.attempt now request).1 = s.useFault kind) ∨
      (s.fault? request.faults = none ∧ Alive lease past d.receipt now ∧
        (s.attempt now request).2 = .answered (.ok .done)) ∨
      (s.fault? request.faults = none ∧ ¬ Alive lease past d.receipt now ∧
        s.attempt now request = (s.reclaim now, .answered (.error (.leaseLost d.id)))) := by
  have st : Store.Step now s (.attempt request) (s.attempt now request).1
      (some (s.attempt now request).2) := Store.step_perform now s (.attempt request)
  generalize s.attempt now request = result at st ⊢
  obtain ⟨s', outcome⟩ := result
  -- The receipt that was looked up is the one of `d`.
  have hsame : ∀ {d' : Delivery}, request.delivery? = some d' → d' = d :=
    fun hd' => Option.some.inj (hd'.symm.trans hd)
  cases st with
  | faulted _ kind hit => exact Or.inl ⟨kind, hit, rfl⟩
  | sent => cases hd
  | bare => cases hd
  | taken => cases hd
  | lost _ d' through safe not_held =>
    obtain rfl := hsame through
    refine Or.inr (Or.inr ⟨safe, fun ha => ?_, rfl⟩)
    obtain ⟨h, found⟩ := (a.find?_reclaim _).mpr ha
    rw [not_held] at found
    cases found
  | renewed d' h safe found =>
    obtain rfl := hsame rfl
    exact Or.inr (Or.inl ⟨safe, (a.find?_reclaim _).mp ⟨h, found⟩, rfl⟩)
  | returned d' h safe found =>
    obtain rfl := hsame rfl
    exact Or.inr (Or.inl ⟨safe, (a.find?_reclaim _).mp ⟨h, found⟩, rfl⟩)
  | deleted d' h safe found =>
    obtain rfl := hsame rfl
    exact Or.inr (Or.inl ⟨safe, (a.find?_reclaim _).mp ⟨h, found⟩, rfl⟩)

/-- Every delivery of a reachable store is fenced, at every moment from the last deed on and in
whatever order the store keeps its leases. -/
theorem Shuffled.fenced {held : List Held} (h : Shuffled name lease past s)
    (same : held.Perm s.held) (hnow : ∀ e ∈ past, e.now ≤ now) {d : Delivery}
    (hd : d ∈ handedOut past) : Fenced name lease past (s.withHeld held) now d := by
  have a := (h.accounted hnow).withHeld same
  refine
    { succeeds := fun request hrequest hsafe => ?_
      lost := fun request hrequest hsafe hdead => ?_
      alone := fun d' hd' hid ha ha' => h.alive_unique hnow hd' hd hid ha' ha
      forever := fun hdead _ _ _ h' hlater hle => not_alive_later hd hdead h' hlater hle
      harmless := fun hdead request hrequest _ hlasts => ?_ }
  · rcases a.attempt_cases hrequest with ⟨kind, hit, -⟩ | ⟨-, ha, hdone⟩ | ⟨-, hdead, hlost⟩
    · rw [hsafe] at hit
      cases hit
    · exact ⟨fun _ => ha, fun _ => hdone⟩
    · rw [hlost]
      exact ⟨nofun, fun ha => absurd ha hdead⟩
  · rcases a.attempt_cases hrequest with ⟨kind, hit, -⟩ | ⟨-, ha, -⟩ | ⟨-, -, hlost⟩
    · rw [hsafe] at hit
      cases hit
    · exact absurd ha hdead
    · exact hlost
  · rcases a.attempt_cases hrequest with ⟨kind, -, hfault⟩ | ⟨-, ha, -⟩ | ⟨-, -, hlost⟩
    · rw [hfault]
      rfl
    · exact absurd ha hdead
    · rw [hlost, Store.mem_held_reclaim]
      exact ⟨And.left, fun hh => ⟨hh, hlasts⟩⟩

/-- A message is taken, its lease expires, and it is taken again. -/
def secondDelivery : List (Nat × Deed) :=
  [(7, .attempt (.take 1)), (1, .attempt (.take 1)), (0, .attempt (.send "a"))]

/-- After a second delivery the first receipt is fenced off: it is lost, and the second one
is alive. -/
theorem fenced_secondDelivery :
    Fenced "q" 5 (Store.replay "q" 5 secondDelivery).1 (Store.replay "q" 5 secondDelivery).2 8
        ⟨0, "q-1", "a"⟩ ∧
      ¬ Alive 5 (Store.replay "q" 5 secondDelivery).1 0 8 ∧
      Alive 5 (Store.replay "q" 5 secondDelivery).1 1 8 := by
  refine ⟨(History.replay "q" 5 secondDelivery (by decide)).shuffled.fenced (.refl _) (by decide)
    (by decide), ?_, ?_⟩
  · rintro ⟨-, t, ht, hlt⟩
    have ht' : some 1 = some t := ht
    cases ht'
    omega
  · exact ⟨nofun, 7, rfl, by decide⟩

end

end Leasework.Queue
