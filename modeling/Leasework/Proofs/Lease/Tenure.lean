import Leasework.Proofs.Lease.Expiry
import Leasework.Proofs.Queue.FirstCome

/-!
# `Leasework.Proofs.Lease.Tenure`: how one lease stands

A lease is either held still, or it has run out, and then its message can be delivered to somebody
else. `Store.Tenure` says which, for one receipt. It is kept by every deed that does not concern
that receipt (`Store.Tenure.step`), and while time passes (`Store.Tenure.later`). A renewal either
is hit by a fault, or comes too late, or makes the lease last a whole lease from now on
(`Store.Tenure.renewal`).

The two results about it say when the lease lasts and when the message is back, both from the moment
at which the lease runs out: `Store.Tenure.lasts_iff` and `Store.Tenure.back_iff`.

For worlds, `World.OnlyKeeper` says that nobody but one keeper makes requests of some kind, and then
the event does nothing to the store, or something of another kind (`World.step_avoids`). What a
keeper renews never changes (`World.step_keepsFor`). `World.Tenured` says how a lease stands in a
world, and an event that leaves it alone keeps it so (`World.Tenured.step`).
-/

set_option autoImplicit false

namespace Leasework

open Queue (Call Deed Delivery Held Message Orderly Progress Request Store)

namespace Queue

/-- A request concerns the lease of a receipt. -/
def Request.Concerns (receipt : Nat) (request : Request) : Prop :=
  ∃ d ∈ request.delivery?, d.receipt = receipt

/-- A request for the renewal of a lease. -/
def Request.IsRenewal : Request → Prop
  | .renew _ => True
  | _ => False

instance (receipt : Nat) (request : Request) : Decidable (request.Concerns receipt) :=
  inferInstanceAs (Decidable (∃ d ∈ request.delivery?, d.receipt = receipt))

instance (request : Request) : Decidable request.IsRenewal :=
  match request with
  | .renew _ => isTrue trivial
  | .send _ | .take _ | .giveBack _ | .delete _ => isFalse id

/-- A deed that attempts no request of a kind. -/
def Deed.Avoids (kind : Request → Prop) : Deed → Prop
  | .attempt request => ¬ kind request
  | _ => True

/-- A message is delivered with a step of a store. -/
def Store.Redelivers (now : Nat) (s s' : Store) (m : Message) : Prop :=
  ∃ deed ds, Store.Step now s deed s' (some (.answered (.ok (.batch ds)))) ∧
    s.ticketOf m ∈ ds.map Delivery.ticket

/-! ### What a deed does to a lease -/

section
variable {now : Nat} {s s' : Store} {deed : Deed} {outcome : Option Outcome} {h h' : Held}

/-- A lease that lasts stays as it is, unless something is asked about it. -/
theorem Store.Step.held_unconcerned (st : Store.Step now s deed s' outcome) (hh : h ∈ s.held)
    (hlive : now < h.expiry) (aside : deed.Avoids (·.Concerns h.receipt)) : h ∈ s'.held := by
  have hreclaim : h ∈ (s.reclaim now).held := Store.mem_held_reclaim.mpr ⟨hh, hlive⟩
  cases st with
  | faulted | injected | sent => exact hh
  | bare | observed | lost => exact hreclaim
  | taken => exact List.mem_append_left _ hreclaim
  | renewed d =>
    have hne : h.receipt ≠ d.receipt := fun hr => aside ⟨d, rfl, hr.symm⟩
    exact Store.mem_held_setExpiry.mpr ⟨h, hreclaim, if_neg hne⟩
  | returned d h₀ _ found =>
    refine Store.mem_held_dropHeld.mpr ⟨hreclaim, fun hr => aside ⟨d, rfl, ?_⟩⟩
    rw [hr, (Store.mem_of_find? found).2]
  | deleted d =>
    exact Store.mem_held_dropHeld.mpr ⟨hreclaim, fun hr => aside ⟨d, rfl, hr.symm⟩⟩

/-- What is held after a deed under an old receipt was held under it before. If leases that have run
out are reclaimed with the deed, it was held on one that lasts. -/
theorem Store.Step.held_from (st : Store.Step now s deed s' outcome) (hh' : h' ∈ s'.held)
    (hold : h'.receipt < s.receipts) :
    s'.held = s.held ∨ ∃ h ∈ s.held, h.receipt = h'.receipt ∧ now < h.expiry := by
  have hreclaim : ∀ {h'}, h' ∈ (s.reclaim now).held →
      ∃ h ∈ s.held, h.receipt = h'.receipt ∧ now < h.expiry := by
    intro h' hh'
    obtain ⟨hh, hlive⟩ := Store.mem_held_reclaim.mp hh'
    exact ⟨h', hh, rfl, hlive⟩
  cases st with
  | faulted | injected | sent => exact Or.inl rfl
  | bare | observed | lost => exact Or.inr (hreclaim hh')
  | taken =>
    rcases List.mem_append.mp hh' with hh' | hh'
    · exact Or.inr (hreclaim hh')
    · exact absurd (Store.mem_leasesOf hh').1 (Nat.not_le.mpr hold)
  | renewed d =>
    obtain ⟨h, hh, rfl⟩ := Store.mem_held_setExpiry.mp hh'
    obtain ⟨hh, hlive⟩ := Store.mem_held_reclaim.mp hh
    refine Or.inr ⟨h, hh, ?_, hlive⟩
    split <;> rfl
  | returned => exact Or.inr (hreclaim (Store.mem_held_dropHeld.mp hh').1)
  | deleted => exact Or.inr (hreclaim (Store.mem_held_dropHeld.mp hh').1)

/-- What is still held under an old receipt has not been delivered meanwhile. -/
theorem Orderly.not_redelivers (o : Orderly s) (hh' : h' ∈ s'.held)
    (hold : h'.receipt < s.receipts) : ¬ Store.Redelivers now s s' h'.message := by
  rintro ⟨deed, ds, st, hmem⟩
  obtain ⟨d, hd, hticket⟩ := List.mem_map.mp hmem
  obtain ⟨hnew, -, h₁, hh₁, hr₁, hid₁, -⟩ := st.batch hd
  -- It would be held twice, under an old receipt and under a new one.
  have hid : s'.idOf h₁.message = s'.idOf h'.message := by
    have hsame : d.id = s.idOf h'.message := congrArg Prod.fst hticket
    rw [hid₁, hsame]
    unfold Store.idOf
    rw [st.name_lease.1]
  obtain rfl := (o.step st).eq_of_id hh₁ hh' hid
  omega

/-- What is held is not visible. -/
theorem Orderly.not_visible (o : Orderly s) (hh : h ∈ s.held) : h.message ∉ s.visible := by
  intro hvisible
  have hnumbers := o.numbers_nodup
  rw [Store.stock, Store.messages, List.map_append, List.map_append, List.nodup_append] at hnumbers
  refine hnumbers.2.2 h.message.number ?_ h.message.number ?_ rfl
  · exact List.mem_map_of_mem (List.mem_map_of_mem hvisible)
  · exact List.mem_map_of_mem (List.mem_map_of_mem (List.mem_map_of_mem hh))

/-! ### How a lease stands -/

/-- How the lease of a receipt stands at a moment, with the moment at which it runs out unless it is
refreshed. The message may have been delivered again since. -/
inductive Store.Tenure (s : Store) (now receipt : Nat) (m : Message) (expiry : Nat)
    (again : Prop) : Prop
  /-- The message is still held, and has not been delivered again. -/
  | held (mem : ⟨receipt, m, expiry⟩ ∈ s.held) (once : ¬ again)
  /-- The lease has run out. Nothing is held under the receipt, and the message can be delivered
  again, or it has been. -/
  | lost (expired : expiry ≤ now) (gone : ∀ h ∈ s.held, h.receipt ≠ receipt)
      (back : m ∈ s.due now ∨ again)

namespace Store.Tenure
variable {receipt expiry : Nat} {m : Message} {again : Prop}

/-- Time passes. -/
theorem later {now' : Nat} (tenure : s.Tenure now receipt m expiry again)
    (hle : now ≤ now') : s.Tenure now' receipt m expiry again := by
  cases tenure with
  | held mem once => exact .held mem once
  | lost expired gone back =>
    exact .lost (Nat.le_trans expired hle) gone (back.imp (Store.due_later hle) id)

/-- A deed is done that leaves the lease as it is, if it lasts. -/
theorem step (tenure : s.Tenure now receipt m expiry again) (o : Orderly s)
    (old : receipt < s.receipts) (st : Store.Step now s deed s' outcome)
    (stays : now < expiry → ⟨receipt, m, expiry⟩ ∈ s.held → ⟨receipt, m, expiry⟩ ∈ s'.held) :
    s'.Tenure now receipt m expiry (again ∨ Store.Redelivers now s s' m) := by
  have hback : m ∈ s.due now → m ∈ s'.due now ∨ Store.Redelivers now s s' m := by
    intro hdue
    refine (st.due_on hdue).imp id ?_
    rintro ⟨ds, rfl, hmem⟩
    exact ⟨deed, ds, st, hmem⟩
  cases tenure with
  | held mem once =>
    by_cases hmem : ⟨receipt, m, expiry⟩ ∈ s'.held
    · refine .held hmem ?_
      rintro (h | h)
      · exact once h
      · exact o.not_redelivers hmem old h
    · -- It has run out, and with the deed it has been reclaimed.
      have hover : expiry ≤ now := Nat.not_lt.mp fun hlive => hmem (stays hlive mem)
      refine .lost hover (fun h' hh' hr => ?_) ?_
      · subst hr
        rcases st.held_from hh' old with hsame | ⟨h, hh, hr, hlive⟩
        · exact hmem (hsame ▸ mem)
        · obtain rfl := List.inj_on_of_nodup_map o.receipts_nodup hh mem hr
          exact absurd hlive (Nat.not_lt.mpr hover)
      · have hdue : m ∈ s.due now := Store.mem_due.mpr (Or.inr ⟨_, mem, hover, rfl⟩)
        exact (hback hdue).imp id Or.inr
  | lost expired gone back =>
    refine .lost expired (fun h' hh' hr => ?_) ?_
    · subst hr
      rcases st.held_from hh' old with hsame | ⟨h, hh, hr, -⟩
      · exact gone h' (hsame ▸ hh') rfl
      · exact gone h hh hr
    · rcases back with hdue | hagain
      · exact (hback hdue).imp id Or.inr
      · exact Or.inr (Or.inl hagain)

/-- Nothing is done. -/
theorem same (tenure : s.Tenure now receipt m expiry again) (o : Orderly s)
    (old : receipt < s.receipts) :
    s.Tenure now receipt m expiry (again ∨ Store.Redelivers now s s m) := by
  cases tenure with
  | held mem once =>
    refine .held mem ?_
    rintro (h | h)
    · exact once h
    · exact o.not_redelivers mem old h
  | lost expired gone back => exact .lost expired gone (back.imp id Or.inl)

/-- The lease lasts until the moment at which it runs out. -/
theorem lasts_iff (tenure : s.Tenure now receipt m expiry again) (o : Orderly s) :
    (∃ h ∈ s.held, h.receipt = receipt ∧ now < h.expiry) ↔ now < expiry := by
  constructor
  · rintro ⟨h, hh, hr, hlive⟩
    cases tenure with
    | held mem =>
      obtain rfl := List.inj_on_of_nodup_map o.receipts_nodup hh mem hr
      exact hlive
    | lost _ gone => exact absurd hr (gone h hh)
  · intro hlive
    cases tenure with
    | held mem => exact ⟨_, mem, rfl, hlive⟩
    | lost expired => exact absurd hlive (Nat.not_lt.mpr expired)

/-- From that moment on, and not before, the message can be delivered again, or it has been. -/
theorem back_iff (tenure : s.Tenure now receipt m expiry again) (o : Orderly s) :
    (m ∈ s.due now ∨ again) ↔ expiry ≤ now := by
  cases tenure with
  | held mem once =>
    constructor
    · rintro (hdue | hagain)
      · rcases Store.mem_due.mp hdue with hvisible | ⟨h, hh, hexpiry, hm⟩
        · exact absurd hvisible (o.not_visible mem)
        · obtain rfl := o.eq_of_id hh mem (congrArg s.idOf hm)
          exact hexpiry
      · exact absurd hagain once
    · exact fun hover => Or.inl (Store.mem_due.mpr (Or.inr ⟨_, mem, hover, rfl⟩))
  | lost expired gone back => exact ⟨fun _ => expired, fun _ => back⟩

/-- What an attempt to renew the lease comes to, with the moment at which the lease runs out from
then on. -/
inductive Attempted (now : Nat) (s : Store) (expiry : Nat) : Except Failure Reply → Nat → Prop
  /-- An injected failure hits it. -/
  | hit (f : Failure) (pending : 0 < s.faults.renewals) : Attempted now s expiry (.error f) expiry
  /-- It comes too late. -/
  | late (f : Failure) (unhit : s.faults.renewals = 0) (expired : expiry ≤ now) :
      Attempted now s expiry (.error f) expiry
  /-- It succeeds. -/
  | made (unhit : s.faults.renewals = 0) (lasts : now < expiry) :
      Attempted now s expiry (.ok .done) (now + s.lease)

/-- An attempt to renew the lease, as long as nothing is throttled. -/
theorem renewal {d : Delivery} {result : Except Failure Reply}
    (tenure : s.Tenure now d.receipt m expiry again) (o : Orderly s)
    (old : d.receipt < s.receipts) (unthrottled : s.faults.throttles = 0)
    (st : Store.Step now s (.attempt (.renew d)) s' (some (.answered result))) :
    ∃ expiry', Attempted now s expiry result expiry' ∧
      s'.Tenure now d.receipt m expiry' (again ∨ Store.Redelivers now s s' m) := by
  have hsafe : s.fault? (Request.renew d).faults = none → s.faults.renewals = 0 := by
    intro safe
    have h := List.find?_eq_none.mp safe .renewal (by simp [Request.faults])
    exact Nat.eq_zero_of_not_pos fun hpos => h (decide_eq_true hpos)
  cases st with
  | faulted _ kind hit =>
    have hpending : 0 < s.faults.count kind := by simpa using List.find?_some hit
    have hrenewal : kind = .renewal := by
      have hmem : kind = .throttle ∨ kind = .renewal := by
        simpa [Request.faults] using List.mem_of_find?_eq_some hit
      refine hmem.resolve_left fun h => ?_
      rw [h] at hpending
      exact Nat.ne_of_gt hpending unthrottled
    subst hrenewal
    exact ⟨expiry, .hit _ hpending, tenure.step o old (.faulted _ _ hit) fun _ mem => mem⟩
  | lost _ d' through safe not_held =>
    cases through
    have hover : expiry ≤ now := by
      refine Nat.not_lt.mp fun hlasts => ?_
      obtain ⟨h, hh, hr, hlive⟩ := (tenure.lasts_iff o).mpr hlasts
      exact Store.find?_eq_none.mp not_held h (Store.mem_held_reclaim.mpr ⟨hh, hlive⟩) hr
    refine ⟨expiry, .late _ (hsafe safe) hover, ?_⟩
    exact tenure.step o old (.lost _ d rfl safe not_held) fun hlive =>
      absurd hlive (Nat.not_lt.mpr hover)
  | renewed _ h safe found =>
    obtain ⟨hmem, hr⟩ := Store.mem_of_find? found
    obtain ⟨hh, hlive⟩ := Store.mem_held_reclaim.mp hmem
    have hlasts : now < expiry := (tenure.lasts_iff o).mp ⟨h, hh, hr, hlive⟩
    refine ⟨now + s.lease, .made (hsafe safe) hlasts, ?_⟩
    cases tenure with
    | lost expired => exact absurd hlasts (Nat.not_lt.mpr expired)
    | held mem once =>
      have hrenewed : ⟨d.receipt, m, now + s.lease⟩
          ∈ ((s.reclaim now).afterRenewal now d.receipt).held := by
        have hreclaim := Store.mem_held_reclaim.mpr ⟨mem, hlasts⟩
        exact Store.mem_held_setExpiry.mpr ⟨_, hreclaim, if_pos rfl⟩
      refine .held hrenewed ?_
      rintro (h | h)
      · exact once h
      · exact o.not_redelivers hrenewed old h

end Store.Tenure

/-- A renewal takes one step, as long as nothing is throttled. -/
theorem Call.Step.of_renewal {c : Call} {d : Delivery} {progress : Progress}
    (st : c.Step false now s s' progress) (hrequest : c.request = .renew d)
    (unthrottled : s.faults.throttles = 0) :
    ∃ result, progress = .ended result ∧
      Store.Step now s (.attempt (.renew d)) s' (some (.answered result)) := by
  cases st with
  | quit asked => cases asked
  | blocked st =>
    rw [hrequest] at st
    cases st
  | throttled st slow =>
    rw [hrequest] at st
    cases st with
    | lost => cases slow
    | faulted _ kind hit =>
      -- Of the faults that can hit a renewal, only throttling is tried again.
      have hpending : 0 < s.faults.count kind := by simpa using List.find?_some hit
      cases kind with
      | throttle => exact absurd unthrottled (Nat.ne_of_gt hpending)
      | _ => cases slow
  | settled st =>
    rw [hrequest] at st
    exact ⟨_, rfl, st⟩

end

end Queue

/-! ### Who makes requests -/

/-- No other keeper attempts a renewal of a kind on a store. -/
def World.KeepersAvoid (q k : Nat) (kind : Request → Prop) (w : World) : Event → Prop
  | .keeper n => n ≠ k → ∀ e ∈ w.plant.keeper? n, e.handle.store = q → ¬ kind (.renew e.delivery)
  | _ => True

/-- Requests of a kind are made on a store by one keeper only: neither an agent makes a call with
such a request, nor another keeper a renewal. -/
def World.OnlyKeeper (q k : Nat) (kind : Request → Prop) (w : World) (event : Event) : Prop :=
  (∀ a ∈ w.agents, ∀ c ∈ a.call?, c.handle.store = q → ¬ kind c.request) ∧
    w.KeepersAvoid q k kind event

instance (q k : Nat) (kind : Request → Prop) [DecidablePred kind] (w : World) (event : Event) :
    Decidable (w.KeepersAvoid q k kind event) :=
  match event with
  | .keeper n => inferInstanceAs (Decidable (n ≠ k → ∀ e ∈ w.plant.keeper? n,
      e.handle.store = q → ¬ kind (.renew e.delivery)))
  | .advance _ | .cancel _ | .inject .. | .observe _ | .keep .. | .stop _ | .leave _ | .board
  | .join _ | .assign .. | .move .. | .drop _ => isTrue trivial

instance (q k : Nat) (kind : Request → Prop) [DecidablePred kind] (w : World) (event : Event) :
    Decidable (w.OnlyKeeper q k kind event) :=
  inferInstanceAs (Decidable (_ ∧ _))

section
variable {q k : Nat} {kind : Request → Prop} {w w' : World} {event : Event}

/-- An event that is not a step of that keeper does nothing of the kind to the store. -/
theorem World.step_avoids (ko : w.plant.KeepersOrderly) (happens : w.step event = some w')
    (only : w.OnlyKeeper q k kind event) (hne : event ≠ .keeper k) :
    Plant.Touched q (·.Avoids kind) w.plant w'.plant := by
  have hturn : ∀ {worker}, Agent.TurnIn w.plant worker w.agents w'.plant w'.agents →
      Plant.Touched q (·.Avoids kind) w.plant w'.plant := by
    rintro worker ⟨before, after, rest, hbefore, -, turn⟩
    refine (turn.touched q).mono ?_
    rintro deed ⟨a, ha, c, calling, there, rfl⟩
    exact only.1 a (hbefore.mem_iff.mpr (List.mem_append_left _ ha)) c calling there
  cases World.step_cases happens with
  | @injected _ fault count =>
    have hdone : ∀ s : Store, s.perform w.plant.now (.inject fault count)
        = (s.inject fault count, none) := fun _ => rfl
    exact .onStore hdone fun _ => trivial
  | observed =>
    have hdone : ∀ s : Store, s.perform w.plant.now .observe = (s.reclaim w.plant.now, none) :=
      fun _ => rfl
    exact .onStore hdone fun _ => trivial
  | @kept n p made =>
    obtain ⟨e, found, st⟩ := Plant.stepKeeper_cases made
    rcases st.called found with ⟨hstores, -⟩ | ⟨call, p₁, progress, -, calling, went, hstores, -⟩
    · exact .of_stores hstores
    · obtain ⟨hrequest, hhandle⟩ := ko.call?_shape found calling
      refine ((Plant.touched_stepCall went).mono ?_).trans_stores hstores
      rintro deed ⟨rfl, there⟩
      rw [hrequest]
      exact only.2 (fun hn => hne (hn ▸ rfl)) e found (hhandle ▸ there)
  | moved turn => exact hturn turn
  | dropped turn => exact hturn turn
  | _ => exact .of_stores rfl

end

/-! ### What a keeper renews -/

/-- The keeper of a number has started, and renews the lease of a delivery. -/
def Plant.KeepsFor (p : Plant) (k : Nat) (handle : Queue.Handle) (d : Delivery) : Prop :=
  k < p.numbered ∧ ∀ e ∈ p.keepers, e.number = k → e.handle = handle ∧ e.delivery = d

/-- A keeper that is there renews what it says. -/
theorem Plant.KeepersOrderly.keepsFor {p : Plant} {k : Nat} {e : KeeperEntry}
    (ko : p.KeepersOrderly) (found : p.keeper? k = some e) :
    p.KeepsFor k e.handle e.delivery := by
  obtain ⟨hmem, hnumber⟩ := mem_of_keeper? found
  refine ⟨hnumber ▸ ko.numbers_lt e hmem, fun e' he' hk => ?_⟩
  obtain rfl := ko.eq_of_number found he' hk
  exact ⟨rfl, rfl⟩

namespace Plant.KeepsFor
variable {p p' : Plant} {k n : Nat} {handle : Queue.Handle} {d : Delivery}

theorem of_eq (kf : p.KeepsFor k handle d) (hkeepers : p'.keepers = p.keepers)
    (hnumbered : p'.numbered = p.numbered) : p'.KeepsFor k handle d :=
  ⟨hnumbered ▸ kf.1, hkeepers ▸ kf.2⟩

theorem stepCall {canceled : Bool} {c : Call} {move : Queue.CallMove} {progress : Progress}
    (kf : p.KeepsFor k handle d) (h : p.stepCall canceled c move = some (p', progress)) :
    p'.KeepsFor k handle d :=
  kf.of_eq (keepers_stepCall h).1 (keepers_stepCall h).2

theorem filter (kf : p.KeepsFor k handle d) (keep : KeeperEntry → Bool) :
    ({ p with keepers := p.keepers.filter keep } : Plant).KeepsFor k handle d :=
  ⟨kf.1, fun e he => kf.2 e (List.mem_filter.mp he).1⟩

theorem onKeeper {change : KeeperEntry → KeeperEntry} (kf : p.KeepsFor k handle d)
    (hsame : ∀ e, (change e).number = e.number ∧ (change e).handle = e.handle ∧
      (change e).delivery = e.delivery) : (p.onKeeper n change).KeepsFor k handle d := by
  refine ⟨kf.1, fun e he hk => ?_⟩
  obtain ⟨e₀, he₀, rfl⟩ := List.mem_map.mp he
  by_cases hn : e₀.number = n
  · obtain ⟨hnumber, hhandle, hdelivery⟩ := hsame e₀
    rw [if_pos hn] at hk ⊢
    rw [hhandle, hdelivery]
    exact kf.2 e₀ he₀ (hnumber ▸ hk)
  · rw [if_neg hn] at hk ⊢
    exact kf.2 e₀ he₀ hk

theorem leaveKeeper (kf : p.KeepsFor k handle d) : (p.leaveKeeper n).KeepsFor k handle d := by
  have hstopped : (p.onKeeper n fun e =>
      { e with keeper := e.keeper.stop, isLeft := true }).KeepsFor k handle d :=
    kf.onKeeper fun _ => ⟨rfl, rfl, rfl⟩
  exact hstopped.filter _

/-- A new keeper has a new number. -/
theorem startKeeper (kf : p.KeepsFor k handle d) (handle' : Queue.Handle) (d' : Delivery)
    (period : Nat) : (p.startKeeper handle' d' period).1.KeepsFor k handle d := by
  refine ⟨Nat.lt_succ_of_lt kf.1, fun e he hk => ?_⟩
  rcases List.mem_append.mp he with he | he
  · exact kf.2 e he hk
  · obtain rfl := List.mem_singleton.mp he
    exact absurd hk (Nat.ne_of_gt kf.1)

theorem act {call : Option Call} {keeper : Option Nat} (kf : p.KeepsFor k handle d)
    (act : p.Act call keeper p') : p'.KeepsFor k handle d := by
  cases act with
  | noted => exact kf.of_eq rfl rfl
  | called _ _ made => exact (kf.stepCall made).of_eq rfl rfl
  | @kept _ _ _ p₁ _ boards _ _ _ _ made =>
    have kf₁ : ({ p₁ with boards := boards } : Plant).KeepsFor k handle d :=
      (kf.stepCall made).of_eq rfl rfl
    exact kf₁.startKeeper _ _ _
  | stopped => exact kf.onKeeper fun _ => ⟨rfl, rfl, rfl⟩
  | left boards =>
    have kf₁ : ({ p with boards := boards } : Plant).KeepsFor k handle d := kf.of_eq rfl rfl
    exact kf₁.leaveKeeper
  | collected _ made =>
    rw [(collectKeeper?_cases made).2]
    exact kf.filter _

theorem stepKeeper (kf : p.KeepsFor k handle d) (h : p.stepKeeper n = some p') :
    p'.KeepsFor k handle d := by
  obtain ⟨e, -, st⟩ := stepKeeper_cases h
  cases st with
  | ended =>
    have kf' : (p.onKeeper e.number
        (.withKeeper { e.keeper with phase := .ended })).KeepsFor k handle d :=
      kf.onKeeper fun _ => ⟨rfl, rfl, rfl⟩
    exact kf'.filter _
  | begun _ _ _ made => exact (kf.stepCall made).onKeeper fun _ => ⟨rfl, rfl, rfl⟩
  | continued _ made => exact (kf.stepCall made).onKeeper fun _ => ⟨rfl, rfl, rfl⟩

end Plant.KeepsFor

/-- A keeper renews the lease of the same delivery as long as it is there. -/
theorem World.step_keepsFor {w w' : World} {event : Event} {k : Nat} {handle : Queue.Handle}
    {d : Delivery} (happens : w.step event = some w') (kf : w.plant.KeepsFor k handle d) :
    w'.plant.KeepsFor k handle d := by
  have hturn : ∀ {worker}, Agent.TurnIn w.plant worker w.agents w'.plant w'.agents →
      w'.plant.KeepsFor k handle d := by
    rintro worker ⟨before, after, rest, -, -, turn⟩
    exact turn.keeps (P := fun q => q.KeepsFor k handle d) kf fun _ _ _ _ _ act kf => kf.act act
  cases World.step_cases happens with
  | canceled | joined => exact kf
  | kept made => exact kf.stepKeeper made
  | started => exact kf.startKeeper _ _ _
  | stopped => exact kf.onKeeper fun _ => ⟨rfl, rfl, rfl⟩
  | left => exact kf.leaveKeeper
  | @assigned post handle' d' =>
    have kf' : (w.plant.onBoard post.board .begin).KeepsFor k handle d := kf.of_eq rfl rfl
    exact kf'.startKeeper handle' d' post.period
  | moved turn => exact hturn turn
  | dropped turn => exact hturn turn
  | _ => exact kf.of_eq rfl rfl

/-! ### How a lease stands in a world -/

/-- A message of a store is delivered. -/
def Occurrence.Redelivers (q : Nat) (m : Message) (o : Occurrence) : Prop :=
  ∃ s ∈ o.before.plant.stores[q]?, ∃ s' ∈ o.after.plant.stores[q]?,
    Store.Redelivers o.before.plant.now s s' m

namespace World

/-- A lease of a store lasts. -/
def Holds (q receipt : Nat) (w : World) : Prop :=
  ∃ s ∈ w.plant.stores[q]?, ∃ h ∈ s.held, h.receipt = receipt ∧ w.plant.now < h.expiry

/-- A message of a store can be delivered again now, or it has been since. -/
def IsBack (q : Nat) (m : Message) (since : List Occurrence) (w : World) : Prop :=
  (∃ s ∈ w.plant.stores[q]?, m ∈ s.due w.plant.now) ∨ ∃ o ∈ since, o.Redelivers q m

/-- How the lease of a receipt of a store stands in a world. It runs out at `expiry`, and its
message may have been delivered again since. -/
def Tenured (q lease receipt : Nat) (m : Message) (expiry : Nat) (since : List Occurrence)
    (w : World) : Prop :=
  ∃ s ∈ w.plant.stores[q]?, Orderly s ∧ receipt < s.receipts ∧ s.lease = lease ∧
    s.Tenure w.plant.now receipt m expiry (∃ o ∈ since, o.Redelivers q m)

section
variable {q lease receipt expiry : Nat} {m : Message} {since : List Occurrence} {w w' : World}
  {event : Event}

/-- The record of deliveries with one more event. -/
theorem redelivered_cons (event : Event) {s s' : Store} (hs : w.plant.stores[q]? = some s)
    (hs' : w'.plant.stores[q]? = some s') :
    ((∃ o ∈ since, o.Redelivers q m) ∨ Store.Redelivers w.plant.now s s' m)
      = ∃ o ∈ (⟨w, event, w'⟩ :: since : List Occurrence), o.Redelivers q m := by
  have hthis : (⟨w, event, w'⟩ : Occurrence).Redelivers q m
      ↔ Store.Redelivers w.plant.now s s' m := by
    unfold Occurrence.Redelivers
    simp only [hs, hs', Option.mem_some_iff, exists_eq_left']
  rw [List.exists_mem_cons_iff, hthis, or_comm]

/-- An event that leaves the lease as it is, if it lasts. -/
theorem Tenured.step {kind : Deed → Prop} (t : w.Tenured q lease receipt m expiry since)
    (happens : w.step event = some w') (touched : Plant.Touched q kind w.plant w'.plant)
    (aside : w.plant.now < expiry → ∀ deed, kind deed → deed.Avoids (·.Concerns receipt)) :
    w'.Tenured q lease receipt m expiry (⟨w, event, w'⟩ :: since) := by
  obtain ⟨s, hs, o, old, hlease, tenure⟩ := t
  have hforward := World.now_le_step happens
  obtain ⟨s', hs', hcase⟩ := touched s hs
  rcases hcase with rfl | ⟨deed, outcome, hkind, st⟩
  · refine ⟨s', hs', o, old, hlease, ?_⟩
    rw [← redelivered_cons event hs hs']
    exact (tenure.same o old).later hforward
  · refine ⟨s', hs', o.step st, Nat.lt_of_lt_of_le old st.receipts_le,
      st.name_lease.2.trans hlease, ?_⟩
    rw [← redelivered_cons event hs hs']
    exact (tenure.step o old st fun hlive mem =>
      st.held_unconcerned mem hlive (aside hlive deed hkind)).later hforward

/-- The lease lasts until it runs out. -/
theorem Tenured.holds_iff (t : w.Tenured q lease receipt m expiry since) :
    w.Holds q receipt ↔ w.plant.now < expiry := by
  obtain ⟨s, hs, o, -, -, tenure⟩ := t
  rw [← tenure.lasts_iff o]
  constructor
  · rintro ⟨s', hs', held⟩
    cases hs'.symm.trans hs
    exact held
  · exact fun held => ⟨s, hs, held⟩

/-- The message is back from the moment on at which the lease runs out. -/
theorem Tenured.isBack_iff (t : w.Tenured q lease receipt m expiry since) :
    w.IsBack q m since ↔ expiry ≤ w.plant.now := by
  obtain ⟨s, hs, o, -, -, tenure⟩ := t
  rw [← tenure.back_iff o]
  refine or_congr ⟨?_, fun hdue => ⟨s, hs, hdue⟩⟩ Iff.rfl
  rintro ⟨s', hs', hdue⟩
  cases hs'.symm.trans hs
  exact hdue

/-- Once the lease has run out, the message stays back, whatever happens. -/
theorem Tenured.isBack_of_run {stores : List Store} {may : World → Event → Prop}
    {past later earlier : List Occurrence} {o : Occurrence}
    (t : o.before.Tenured q lease receipt m expiry since) (expired : expiry ≤ o.before.plant.now)
    (run : Run stores may past w) (hpast : past = later ++ o :: earlier) :
    w.IsBack q m (later ++ o :: since) := by
  have hstep : ∀ {since : List Occurrence} {v : World} {event : Event} {v' : World},
      v.plant.KeepersOrderly → v.step event = some v' →
      v.Tenured q lease receipt m expiry since ∧ expiry ≤ v.plant.now →
        v'.Tenured q lease receipt m expiry (⟨v, event, v'⟩ :: since) ∧ expiry ≤ v'.plant.now := by
    rintro since v event v' ko happens ⟨t, expired⟩
    have touched := World.step_touched ko happens q
    exact ⟨t.step happens touched fun hlive => absurd hlive (Nat.not_lt.mpr expired),
      Nat.le_trans expired (World.now_le_step happens)⟩
  obtain ⟨before, -, happens⟩ := run.exists_before hpast
  have both := run.since (P := fun rest v =>
      v.Tenured q lease receipt m expiry (rest ++ o :: since) ∧ expiry ≤ v.plant.now) hpast
    (hstep before.keepersOrderly happens ⟨t, expired⟩) hstep
  exact both.1.isBack_iff.mpr both.2

end

end World

end Leasework
