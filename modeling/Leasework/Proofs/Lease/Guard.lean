import Leasework.Proofs.Lease.Period
import Leasework.Proofs.World.Deliveries

/-!
# `Leasework.Proofs.Lease.Guard`: a keeper beside a delivery

A keeper *guards* a delivery when its next renewal is due a millisecond at least before the
lease runs out. A `Guard` has these two moments.

It begins with the work on a message (`Guarded.begin`). It stays in place while others act
(`Guard.of_touched`) and while time passes, as long as the clock waits for the renewal
(`Guard.later`). A renewal moves it on (`Guard.renew`): the next renewal is due a period later,
the lease runs out a lease later, and a period and a millisecond fit into a lease.
-/

set_option autoImplicit false

namespace Leasework

open Queue (Call Delivery Held Store)

/-- The moment at which a keeper begins its next renewal, if it has not been told to stop. -/
def KeeperEntry.due? (e : KeeperEntry) : Option Nat :=
  match e.keeper.phase with
  | .waiting due => if e.keeper.stopped then none else some due
  | _ => none

/-- A keeper renews the lease of a delivery in time. The next renewal has been due for less than
a millisecond, if it is due (`punctual`), and it is due within a period (`soon`). The message is
held till a millisecond after that, at least (`lasts`). -/
structure Guard (q : Nat) (p : Plant) (s : Store) (x : Delivery × Nat) (e : KeeperEntry)
    (due : Nat) (h : Held) : Prop where
  found : p.keeper? x.2 = some e
  store : e.handle.store = q
  delivery : e.delivery = x.1
  owned : e.isLeft = false
  free : e.keeper.stopped = false
  waiting : e.keeper.phase = .waiting due
  short : e.keeper.period + nanosPerMilli ≤ s.lease
  punctual : p.now < due + nanosPerMilli
  soon : due ≤ p.now + e.keeper.period
  held : h ∈ s.held
  receipt : h.receipt = x.1.receipt
  id : s.idOf h.message = x.1.id
  content : h.message.content = x.1.content
  lasts : due + nanosPerMilli ≤ h.expiry

/-- Some keeper guards a delivery. -/
def Guarded (q : Nat) (p : Plant) (s : Store) (x : Delivery × Nat) : Prop :=
  ∃ e due h, Guard q p s x e due h

namespace Guard
variable {q : Nat} {p p' : Plant} {s s' : Store} {x : Delivery × Nat} {e : KeeperEntry}
  {due : Nat} {h : Held}

/-- A lease that is guarded has not run out. -/
theorem live (g : Guard q p s x e due h) : p.now < h.expiry :=
  Nat.lt_of_lt_of_le g.punctual g.lasts

/-- The keeper of a guard is about to renew, and not to end. -/
theorem due?_eq_some (g : Guard q p s x e due h) : e.due? = some due := by
  simp [KeeperEntry.due?, g.waiting, g.free]

theorem end?_eq_none (g : Guard q p s x e due h) : e.keeper.end? = none := by
  simp [Lease.Keeper.end?, g.waiting, g.free]

/-- What is held under the new lease is the message of the delivery. -/
theorem id_of_step (g : Guard q p s x e due h) {deed : Queue.Deed}
    {outcome : Option Queue.Outcome} (st : Store.Step p.now s deed s' outcome) {h' : Held}
    (hm : h'.message = h.message) : s'.idOf h'.message = x.1.id := by
  rw [hm, ← g.id]
  unfold Store.idOf
  rw [st.name_lease.1]

/-- A guard stays in place while others do what they like, as long as the delivery does not
end. -/
theorem of_touched (g : Guard q p s x e due h) {kind : Queue.Deed → Prop}
    (hfound : p'.keeper? x.2 = some e) (hnow : p'.now = p.now)
    (hcase : s' = s ∨ ∃ deed outcome, kind deed ∧ Store.Step p.now s deed s' outcome)
    (hopen : ∀ deed, kind deed → ∀ d, deed.closes? = some d → d.receipt ≠ x.1.receipt) :
    Guarded q p' s' x := by
  rcases hcase with rfl | ⟨deed, outcome, hkind, st⟩
  · exact ⟨e, due, h,
      { g with
        found := hfound
        punctual := hnow ▸ g.punctual
        soon := hnow ▸ g.soon }⟩
  · have hlease := st.name_lease.2
    obtain ⟨h', hh', hr, hm, hexpiry⟩ := st.held_on g.held g.live fun d hd => by
      rw [g.receipt]
      exact hopen deed hkind d hd
    refine ⟨e, due, h',
      { g with
        found := hfound
        short := hlease ▸ g.short
        punctual := hnow ▸ g.punctual
        soon := hnow ▸ g.soon
        held := hh'
        receipt := hr.trans g.receipt
        id := g.id_of_step st hm
        content := by rw [hm]; exact g.content
        lasts := ?_ }⟩
    have hlasts := g.lasts
    have hsoon := g.soon
    have hshort := g.short
    -- Even a lease that has just been renewed by somebody else lasts long enough.
    omega

/-- A guard stays in place while time passes, because the clock waits for the renewal. -/
theorem later (g : Guard q p s x e due h) {millis : Nat} (hle : p.now ≤ millis * nanosPerMilli)
    (hmillis : millis ≤ Rehearsal.Stage.ceilMillis due) :
    Guard q { p with now := millis * nanosPerMilli } s x e due h :=
  { g with
    punctual := Lease.lt_of_le_ceilMillis hmillis
    soon := Nat.le_trans g.soon (Nat.add_le_add_right hle _) }

/-- A renewal moves the guard on: the next renewal is due a period after this one, and the
lease lasts a whole lease from now on. -/
theorem renew (g : Guard q p s x e due h) (happens : p.stepKeeper x.2 = some p')
    (hs : p.stores[q]? = some s) (hs' : p'.stores[q]? = some s')
    (safe : s.fault? (Queue.Request.renew e.delivery).faults = none) : Guarded q p' s' x := by
  obtain ⟨e₀, he₀, st⟩ := Plant.stepKeeper_cases happens
  obtain rfl : e₀ = e := Option.some.inj (he₀.symm.trans g.found)
  have hnumber := (Plant.mem_of_keeper? g.found).2
  cases st with
  | ended waiting told =>
    rw [g.free] at told
    cases told
  | continued renewing =>
    rw [g.waiting] at renewing
    cases renewing
  | @begun due' p₁ progress waiting free reached made =>
    rw [g.waiting] at waiting
    cases waiting
    obtain ⟨s₀, s₁, hs₀, st, rfl⟩ := Plant.stepCall_cases made
    obtain rfl := g.store
    obtain rfl : s₀ = s := Option.some.inj (hs₀.symm.trans hs)
    obtain rfl : s₁ = s' := Option.some.inj ((Plant.stores_withStore hs₀ s₁).symm.trans hs')
    obtain ⟨rfl, h', hh', hr, hm, hexpiry⟩ :=
      st.renewed rfl safe g.held (g.delivery ▸ g.receipt) g.live
    have hlease := st.succeeded.name_lease.2
    have hpunctual := g.punctual
    have hshort := g.short
    refine ⟨e₀.withKeeper
        { e₀.keeper with
          phase := .waiting (Lease.nextDue e₀.keeper.period due p.now)
          renewed := e₀.keeper.renewed + 1 },
      due + e₀.keeper.period, h', ?found, rfl, g.delivery, g.owned, g.free, ?waiting,
      hlease ▸ g.short, ?punctual, ?soon, hh', hr.trans g.receipt, g.id_of_step st.succeeded hm,
      ?content, ?lasts⟩
    case found =>
      rw [hnumber]
      exact Plant.keeper?_onKeeper_self (KeeperEntry.withKeeper_number _) g.found
    case waiting =>
      show Lease.KeeperPhase.waiting (Lease.nextDue e₀.keeper.period due p.now) = _
      rw [Lease.nextDue_of_lt g.punctual]
    case content => rw [hm, g.content]
    case punctual =>
      show p.now < due + e₀.keeper.period + nanosPerMilli
      omega
    case soon =>
      show due + e₀.keeper.period ≤ p.now + e₀.keeper.period
      omega
    case lasts => omega

end Guard

/-- A guard begins with the keeper that starts when a message has come. -/
theorem Guarded.begin {q : Nat} {p p₁ p' : Plant} {s s' : Store} {x : Delivery × Nat}
    {canceled : Bool} {call : Call} {move : Queue.CallMove} {rest : List Delivery}
    {handle : Queue.Handle} {board period : Nat} {change : Work.Board → Work.Board}
    (made : p.stepCall canceled call move = some (p₁, .ended (.ok (.batch (x.1 :: rest)))))
    (hk : x.2 = p₁.numbered)
    (hplant : p' = ((p₁.onBoard board change).startKeeper handle x.1 period).1)
    (hcall : call.handle.store = q) (hhandle : handle.store = q)
    (hlt : ∀ e ∈ p.keepers, e.number < p.numbered)
    (hs : p.stores[q]? = some s) (hs' : p'.stores[q]? = some s') (hpos : 0 < period)
    (hshort : period + nanosPerMilli ≤ s.lease) : Guarded q p' s' x := by
  obtain ⟨s₀, s₁, hs₀, rfl, st⟩ := Plant.stepCall_succeeded made
  subst hcall hplant
  obtain rfl : s₀ = s := Option.some.inj (hs₀.symm.trans hs)
  obtain rfl : s₁ = s' := Option.some.inj ((Plant.stores_withStore hs₀ s₁).symm.trans hs')
  obtain ⟨-, -, h, hh, hr, hid, hcontent, hexpiry⟩ := st.batch List.mem_cons_self
  have hlease := st.name_lease.2
  refine ⟨⟨p.numbered, handle, x.1, .start period p.now, false⟩, p.now + period, h, ?found,
    hhandle, rfl, rfl, rfl, ?waiting, hlease ▸ hshort, ?punctual, Nat.le_refl _, hh, hr, hid,
    hcontent, ?lasts⟩
  case found =>
    rw [hk]
    exact Plant.keeper?_startKeeper_self hlt
  case waiting =>
    show (if period = 0 then _ else _) = _
    rw [if_neg (Nat.ne_of_gt hpos)]
  case punctual =>
    show p.now < p.now + period + nanosPerMilli
    omega
  case lasts => omega

end Leasework
