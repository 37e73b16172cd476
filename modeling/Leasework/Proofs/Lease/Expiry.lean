import Leasework.Proofs.Lease.Renewals
import Leasework.Proofs.Queue.Orderly

/-!
# `Leasework.Proofs.Lease.Expiry`: when a message is visible again

What is held is visible again a lease after its last refresh. `Occurrence.Refreshes` says which
events refresh a lease: the message is delivered, or a renewal of its lease is completed. A renewal
that begins, is throttled, or fails refreshes nothing, so `Run.dated` tells the expiry of everything
held from the record alone.

`Store.Step.held_since` is the step for one store, `World.held_since` and
`World.expiry_of_refreshes` are the ones for the world.
-/

set_option autoImplicit false

namespace Leasework

open Queue (Call Deed Entry Held Orderly Outcome Progress Reply Store)

/-! ### One store -/

namespace Queue

/-- Only a call that succeeds refreshes a lease. -/
theorem Entry.answered_of_refreshes {receipt now : Nat} {deed : Deed} {outcome : Option Outcome}
    (h : Entry.refreshes receipt ⟨now, deed, outcome⟩ = true) :
    ∃ reply, outcome = some (.answered (.ok reply)) := by
  unfold Entry.refreshes Entry.carriedOut? Entry.handedOut at h
  rcases outcome with _ | (_ | _) | _
  · cases deed <;> simp at h
  · cases deed <;> simp at h
  · exact ⟨_, rfl⟩
  · cases deed <;> simp at h

section
variable {now : Nat} {s s' : Store} {deed : Deed} {outcome : Option Outcome} {h : Held}

/-- What is held after a deed has been held before, as long as its lease is not refreshed, and
otherwise it expires a lease from now on. -/
theorem Store.Step.held_since (st : Store.Step now s deed s' outcome) (o : Orderly s)
    (hh : h ∈ s'.held) :
    (Entry.refreshes h.receipt ⟨now, deed, outcome⟩ = true → h.expiry = now + s.lease) ∧
      (Entry.refreshes h.receipt ⟨now, deed, outcome⟩ = false → h ∈ s.held) := by
  have hreclaim : ∀ {h}, h ∈ (s.reclaim now).held → h ∈ s.held :=
    fun hh => (Store.mem_held_reclaim.mp hh).1
  cases st with
  | faulted request => exact ⟨by cases request <;> exact nofun, fun _ => hh⟩
  | injected => exact ⟨nofun, fun _ => hh⟩
  | sent => exact ⟨nofun, fun _ => hh⟩
  | bare => exact ⟨nofun, fun _ => hreclaim hh⟩
  | observed => exact ⟨nofun, fun _ => hreclaim hh⟩
  | lost request => exact ⟨by cases request <;> exact nofun, fun _ => hreclaim hh⟩
  | returned => exact ⟨nofun, fun _ => hreclaim (Store.mem_held_dropHeld.mp hh).1⟩
  | deleted => exact ⟨nofun, fun _ => hreclaim (Store.mem_held_dropHeld.mp hh).1⟩
  | taken most =>
    rcases List.mem_append.mp hh with hh | hh
    · -- A lease that was there before has an older receipt than those of the batch.
      refine ⟨fun hr => ?_, fun _ => hreclaim hh⟩
      obtain ⟨d, hd, he⟩ := List.any_eq_true.mp hr
      obtain ⟨h', hh', hreceipt, -⟩ := Store.mem_deliveriesOf now hd
      have hge := (Store.mem_leasesOf hh').1
      have hlt := o.receipts_lt h (hreclaim hh)
      have he : d.receipt = h.receipt := of_decide_eq_true he
      omega
    · obtain ⟨-, -, hexpiry, hd⟩ := Store.mem_leasesOf hh
      refine ⟨fun _ => hexpiry, fun hr => ?_⟩
      exact absurd (List.any_eq_true.mpr ⟨_, hd, decide_eq_true rfl⟩) (Bool.eq_false_iff.mp hr)
  | renewed d =>
    obtain ⟨h₀, hh₀, rfl⟩ := Store.mem_held_setExpiry.mp hh
    by_cases he : h₀.receipt = d.receipt
    · rw [if_pos he]
      refine ⟨fun _ => rfl, fun hr => ?_⟩
      exact absurd he.symm (of_decide_eq_false hr)
    · rw [if_neg he]
      exact ⟨fun hr => absurd (of_decide_eq_true hr).symm he, fun _ => hreclaim hh₀⟩

/-- What is held after a step of a call has been held before, or the call has just succeeded and has
refreshed its lease. -/
theorem Call.Step.held_since {canceled : Bool} {c : Call} {progress : Progress}
    (st : c.Step canceled now s s' progress) (o : Orderly s) (hh : h ∈ s'.held) :
    h ∈ s.held ∨ ∃ reply, progress = .ended (.ok reply) ∧
      Entry.refreshes h.receipt
        ⟨now, .attempt c.request, some (.answered (.ok reply))⟩ = true := by
  -- An attempt that does not succeed refreshes nothing, so what is held was held before.
  have hkept : ∀ {outcome : Outcome}, Store.Step now s (.attempt c.request) s' (some outcome) →
      (∀ reply, outcome ≠ .answered (.ok reply)) → h ∈ s.held := by
    intro outcome st hfailed
    refine (st.held_since o hh).2 (Bool.eq_false_iff.mpr fun hr => ?_)
    obtain ⟨reply, houtcome⟩ := Entry.answered_of_refreshes hr
    exact hfailed reply (Option.some.inj houtcome)
  cases st with
  | quit => exact Or.inl hh
  | blocked st => exact Or.inl (hkept st nofun)
  | throttled st => exact Or.inl (hkept st nofun)
  | @settled _ result st =>
    cases result with
    | error f => exact Or.inl (hkept st nofun)
    | ok reply =>
      cases hr : Entry.refreshes h.receipt
          ⟨now, .attempt c.request, some (.answered (.ok reply))⟩ with
      | true => exact Or.inr ⟨reply, rfl, hr⟩
      | false => exact Or.inl ((st.held_since o hh).2 hr)

/-- Whoever looks at a store when a lease has run out makes its message visible. -/
theorem Store.mem_visible_reclaim (hh : h ∈ s.held) (hexpiry : h.expiry ≤ now) :
    h.message ∈ (s.reclaim now).visible := by
  rw [visible_reclaim]
  refine List.mem_append_left _ (List.mem_reverse.mpr (List.mem_map_of_mem ?_))
  exact List.mem_filter.mpr ⟨hh, decide_eq_true hexpiry⟩

end

end Queue

/-! ### What refreshes a lease -/

/-- The lease of a receipt of a store is refreshed with an event. -/
inductive Occurrence.Refreshes (q receipt : Nat) (o : Occurrence) : Prop
  /-- A keeper completes a renewal of it. -/
  | renewed {k : Nat} {e : KeeperEntry} {reply : Reply} (event : o.event = .keeper k)
      (found : o.before.plant.keeper? k = some e) (there : e.handle.store = q)
      (same : e.delivery.receipt = receipt) (completes : o.completion? k = some (.ok reply)) :
      Refreshes q receipt o
  /-- The call of an agent delivers the message, or renews the lease. -/
  | called {a : Agent} {c : Call} {s s' : Store} {reply : Reply} (agent : a ∈ o.before.agents)
      (calling : a.call? = some c) (there : c.handle.store = q)
      (before : o.before.plant.stores[q]? = some s) (after : o.after.plant.stores[q]? = some s')
      (done : Store.Step o.before.plant.now s (.attempt c.request) s'
        (some (.answered (.ok reply))))
      (refreshes : Entry.refreshes receipt
        ⟨o.before.plant.now, .attempt c.request, some (.answered (.ok reply))⟩ = true) :
      Refreshes q receipt o

/-- An event on record is the last one that has refreshed the lease of a receipt of a store. -/
def LastRefresh (q receipt : Nat) (past : List Occurrence) (o : Occurrence) : Prop :=
  ∃ later earlier, past = later ++ o :: earlier ∧ o.Refreshes q receipt ∧
    ∀ o' ∈ later, ¬ o'.Refreshes q receipt

/-- One more event on record that refreshes nothing. -/
theorem LastRefresh.cons {q receipt : Nat} {past : List Occurrence} {o o' : Occurrence}
    (last : LastRefresh q receipt past o) (quiet : ¬ o'.Refreshes q receipt) :
    LastRefresh q receipt (o' :: past) o := by
  obtain ⟨later, earlier, rfl, refreshes, unrefreshed⟩ := last
  exact ⟨o' :: later, earlier, rfl, refreshes, List.forall_mem_cons.mpr ⟨quiet, unrefreshed⟩⟩

/-- The call with which a keeper goes on renews the lease that the keeper keeps. -/
theorem Plant.KeepersOrderly.call?_shape {p : Plant} {k : Nat} {e : KeeperEntry} {call : Call}
    (o : p.KeepersOrderly) (found : p.keeper? k = some e) (calling : e.call? = some call) :
    call.request = .renew e.delivery ∧ call.handle = e.handle := by
  unfold KeeperEntry.call? at calling
  split at calling
  · split at calling <;> cases calling
    exact ⟨rfl, rfl⟩
  · rename_i due call' hphase
    cases calling
    exact o.inShape e (mem_of_keeper? found).1 due _ hphase
  · cases calling

section
variable {q : Nat} {w w' : World} {event : Event} {s s' : Store}

/-- A step of a keeper is a step of its call, which is on record, or leaves the stores alone. -/
theorem Plant.KeeperStep.called {k : Nat} {e : KeeperEntry} {p' : Plant}
    (st : w.plant.KeeperStep e p') (found : w.plant.keeper? k = some e) :
    p'.stores = w.plant.stores ∧ w.renewal? k (.keeper k) = none ∨
      ∃ call p₁ progress isNew, e.call? = some call ∧
        w.plant.stepCall false call .go = some (p₁, progress) ∧ p'.stores = p₁.stores ∧
        w.renewal? k (.keeper k) = some (isNew, progress) := by
  cases st with
  | ended waiting told =>
    have hcall : e.call? = none := by simp [KeeperEntry.call?, waiting, told]
    exact Or.inl ⟨rfl, World.renewal?_of_no_call found hcall⟩
  | begun waiting free reached made =>
    have hcall : e.call? = some e.renewal := by simp [KeeperEntry.call?, waiting, free]
    exact Or.inr ⟨_, _, _, _, hcall, made, rfl, World.renewal?_of_call found hcall made⟩
  | @continued due call p₁ progress renewing made =>
    have hcall : e.call? = some call := by rw [KeeperEntry.call?, renewing]
    exact Or.inr ⟨_, _, _, _, hcall, made, rfl, World.renewal?_of_call found hcall made⟩

/-- What is held after an event whose lease is refreshed with it expires a lease from now on. -/
theorem World.expiry_of_refreshes (ko : w.plant.KeepersOrderly) (happens : w.step event = some w')
    (hs : w.plant.stores[q]? = some s) (hs' : w'.plant.stores[q]? = some s') (o : Orderly s)
    {h : Held} (hh : h ∈ s'.held)
    (refreshes : (⟨w, event, w'⟩ : Occurrence).Refreshes q h.receipt) :
    h.expiry = w.plant.now + s.lease := by
  cases refreshes with
  | called _ _ _ before after done refreshes =>
    cases before.symm.trans hs
    cases after.symm.trans hs'
    exact (done.held_since o hh).1 refreshes
  | @renewed k e reply event' found there same completes =>
    obtain rfl : event = .keeper k := event'
    cases World.step_cases happens with
    | kept made =>
      obtain ⟨e', found', st⟩ := Plant.stepKeeper_cases made
      obtain rfl : e' = e := Option.some.inj (found'.symm.trans found)
      rcases st.called found with
        ⟨-, hnone⟩ | ⟨call, p₁, progress, isNew, hcall, went, hstores, hrenewal⟩
      · rw [Occurrence.completion?, Occurrence.renewal?, hnone] at completes
        cases completes
      · -- The call of the renewal has just succeeded.
        rw [Occurrence.completion?, Occurrence.renewal?, hrenewal, Option.bind_some] at completes
        obtain ⟨hrequest, hhandle⟩ := ko.call?_shape found hcall
        cases progress with
        | going => cases completes
        | ended result =>
          cases completes
          obtain ⟨s₀, s₁, hs₀, rfl, done⟩ := Plant.stepCall_succeeded went
          have hs₁ : (w.plant.withStore call.handle.store s₁).stores[call.handle.store]?
              = some s₁ := Plant.stores_withStore hs₀ s₁
          rw [hhandle, there] at hs₀ hs₁
          rw [hstores, hhandle, there] at hs'
          cases hs₀.symm.trans hs
          cases hs₁.symm.trans hs'
          refine (done.held_since o hh).1 ?_
          rw [hrequest]
          exact decide_eq_true same

/-- What is held after a step of a keeper was held before, or the keeper has just completed a
renewal of its lease. -/
theorem Plant.KeeperStep.held_since {k : Nat} {e : KeeperEntry} {p' : Plant}
    (st : w.plant.KeeperStep e p') (ko : w.plant.KeepersOrderly)
    (found : w.plant.keeper? k = some e) (hs : w.plant.stores[q]? = some s)
    (hs' : p'.stores[q]? = some s') (o : Orderly s) {h : Held} (hh : h ∈ s'.held) :
    h ∈ s.held ∨ e.handle.store = q ∧ e.delivery.receipt = h.receipt ∧
      ∃ isNew reply, w.renewal? k (.keeper k) = some (isNew, .ended (.ok reply)) := by
  rcases st.called found with
    ⟨hstores, -⟩ | ⟨call, p₁, progress, isNew, hcall, went, hstores, hrenewal⟩
  · rw [hstores] at hs'
    cases hs.symm.trans hs'
    exact Or.inl hh
  · obtain ⟨hrequest, hhandle⟩ := ko.call?_shape found hcall
    obtain ⟨s₀, s₁, hs₀, made, rfl⟩ := stepCall_cases went
    rw [hstores, withStore] at hs'
    by_cases there : call.handle.store = q
    · rw [there] at hs₀ hs'
      cases hs₀.symm.trans hs
      rw [List.getElem?_set_self (List.getElem?_eq_some_iff.mp hs₀).1] at hs'
      cases hs'
      refine (made.held_since o hh).imp id ?_
      rintro ⟨reply, rfl, hr⟩
      rw [hrequest] at hr
      exact ⟨hhandle ▸ there, of_decide_eq_true hr, isNew, reply, hrenewal⟩
    · -- The renewal is about another store.
      rw [List.getElem?_set_ne there] at hs'
      cases hs.symm.trans hs'
      exact Or.inl hh

/-- What is held after a turn was held before, or the call of an agent has just refreshed its
lease. -/
theorem Agent.TurnIn.held_since {worker : Option (Work.Consumer × Work.ConsumerMove)}
    (turn : Agent.TurnIn w.plant worker w.agents w'.plant w'.agents)
    (hs : w.plant.stores[q]? = some s) (hs' : w'.plant.stores[q]? = some s') (o : Orderly s)
    {h : Held} (hh : h ∈ s'.held) :
    h ∈ s.held ∨ (⟨w, event, w'⟩ : Occurrence).Refreshes q h.receipt := by
  obtain ⟨before, after, rest, hbefore, -, turn⟩ := turn
  obtain ⟨s₁, hs₁, hcase⟩ := turn.touched q s hs
  cases hs₁.symm.trans hs'
  rcases hcase with rfl | ⟨deed, outcome, ⟨a, ha, c, calling, there, rfl⟩, st⟩
  · exact Or.inl hh
  · cases hr : Queue.Entry.refreshes h.receipt ⟨w.plant.now, .attempt c.request, outcome⟩ with
    | false => exact Or.inl ((st.held_since o hh).2 hr)
    | true =>
      obtain ⟨reply, rfl⟩ := Queue.Entry.answered_of_refreshes hr
      have hagent := hbefore.mem_iff.mpr (List.mem_append_left _ ha)
      exact Or.inr (.called hagent calling there hs hs' st hr)

/-- What is held after an event was held before, or its lease is refreshed with the event. -/
theorem World.held_since (ko : w.plant.KeepersOrderly) (happens : w.step event = some w')
    (hs : w.plant.stores[q]? = some s) (hs' : w'.plant.stores[q]? = some s') (o : Orderly s)
    {h : Held} (hh : h ∈ s'.held) :
    h ∈ s.held ∨ (⟨w, event, w'⟩ : Occurrence).Refreshes q h.receipt := by
  -- Apart from turns and steps of keepers, few events reach a store, and they refresh nothing.
  have hsame : w'.plant.stores = w.plant.stores → h ∈ s.held := by
    intro hstores
    rw [hstores] at hs'
    cases hs.symm.trans hs'
    exact hh
  have hchange : ∀ {i : Nat} {change : Store → Store},
      w'.plant.stores = (w.plant.onStore i change).stores →
      (∀ h', h' ∈ (change s).held → h' ∈ s.held) → h ∈ s.held := by
    intro i change hstores hheld
    rw [hstores, Plant.onStore, List.getElem?_modify, hs, Option.map_eq_map, Option.map_some,
      Option.some.injEq] at hs'
    split at hs'
    · exact hheld h (hs' ▸ hh)
    · exact hs' ▸ hh
  cases World.step_cases happens with
  | injected => exact Or.inl (hchange rfl fun _ hh' => hh')
  | observed => exact Or.inl (hchange rfl fun _ hh' => (Store.mem_held_reclaim.mp hh').1)
  | @kept k p made =>
    obtain ⟨e, found, st⟩ := Plant.stepKeeper_cases made
    refine (st.held_since ko found hs hs' o hh).imp id ?_
    rintro ⟨there, same, isNew, reply, hrenewal⟩
    have completes : (⟨w, .keeper k, ⟨p, w.parties⟩⟩ : Occurrence).completion? k
        = some (.ok reply) := by
      rw [Occurrence.completion?, Occurrence.renewal?, hrenewal]
      rfl
    exact .renewed rfl found there same completes
  | moved turn => exact turn.held_since hs hs' o hh
  | dropped turn => exact turn.held_since hs hs' o hh
  | _ => exact Or.inl (hsame rfl)

end

/-! ### Runs -/

/-- Everything that a store holds expires a lease after its last refresh on record. -/
structure Dated (q lease : Nat) (past : List Occurrence) (s : Store) : Prop where
  lasting : s.lease = lease
  orderly : Orderly s
  dated : ∀ h ∈ s.held, ∃ o, LastRefresh q h.receipt past o ∧
    h.expiry = o.before.plant.now + lease

section
variable {q lease : Nat} {past : List Occurrence} {w w' : World} {event : Event} {s : Store}

/-- Every event keeps that so. -/
theorem Dated.step (d : Dated q lease past s) (ko : w.plant.KeepersOrderly)
    (happens : w.step event = some w') (hs : w.plant.stores[q]? = some s) :
    ∃ s', w'.plant.stores[q]? = some s' ∧ Dated q lease (⟨w, event, w'⟩ :: past) s' := by
  obtain ⟨s', hs', hcase⟩ := World.step_touched ko happens q s hs
  obtain ⟨hlease, o'⟩ : s'.lease = s.lease ∧ Orderly s' := by
    rcases hcase with rfl | ⟨deed, outcome, -, st⟩
    · exact ⟨rfl, d.orderly⟩
    · exact ⟨st.name_lease.2, d.orderly.step st⟩
  refine ⟨s', hs', hlease.trans d.lasting, o', fun h hh => ?_⟩
  by_cases refreshes : (⟨w, event, w'⟩ : Occurrence).Refreshes q h.receipt
  · refine ⟨_, ⟨[], past, rfl, refreshes, List.forall_mem_nil _⟩, ?_⟩
    rw [← d.lasting]
    exact World.expiry_of_refreshes ko happens hs hs' d.orderly hh refreshes
  · have held := (World.held_since ko happens hs hs' d.orderly hh).resolve_right refreshes
    obtain ⟨o, last, hexpiry⟩ := d.dated h held
    exact ⟨o, last.cons refreshes, hexpiry⟩

/-- In every run, everything that a store holds expires a lease after its last refresh. -/
theorem Run.dated {stores : List Store} {may : World → Event → Prop} {name : String}
    (run : Run stores may past w) (hq : stores[q]? = some (.empty name lease)) :
    ∃ s, w.plant.stores[q]? = some s ∧ Dated q lease past s := by
  induction run with
  | start => exact ⟨_, hq, rfl, .empty _ _, List.forall_mem_nil _⟩
  | step _ before _ happens ih =>
    obtain ⟨s, hs, d⟩ := ih
    exact d.step before.keepersOrderly happens hs

end

end Leasework
