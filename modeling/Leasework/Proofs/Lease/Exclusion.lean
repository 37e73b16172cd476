import Mathlib.Data.List.Pairwise
import Leasework.Proofs.Lease.Guard

/-!
# `Leasework.Proofs.Lease.Exclusion`: one handler for one message

While a handler is at work on a message, a keeper renews the lease. `Run.exclusive` says that
the lease then never runs out, however long the handler takes: nobody else receives the
message, and no other handler is at work on it. This holds for every lease of at least four
whole milliseconds, whatever the consumers, crews and other parties do and in whatever order.

What has to be asked of the surroundings is in `Timely`. Renewals begin at the first
millisecond at which they are due, and no fault hits them. Everybody keeps his hands off what
belongs to the handlers of others: their deliveries and their keepers.

The invariant is `Watched`: beside every handler there is a keeper that guards its delivery, and
no other agent has the delivery or the keeper. An event exchanges some agents for newcomers.
`Watched.turned`, `Watched.joined` and `Watched.assigned` say that newcomers fit in.
-/

set_option autoImplicit false

namespace Leasework

open Queue (Call Delivery Held Orderly Store)
open Work (Consumer Post)

/-! ### What is asked of the surroundings -/

/-- Who takes messages from a store renews their leases as the lease of the store says. -/
def Work.Post.Keeps (q : Nat) (lease : Span) (post : Post) : Prop :=
  post.requests.store = q →
    Post.between post.requests post.responses post.board lease = .ok post

/-- An agent that has not begun to work. -/
def Agent.IsNew : Agent → Prop
  | .consumer c => c.activity = .receiving (Consumer.receive c.post)
  | _ => True

/-- Who may join:

- `isNew`: it has not begun to work, if it is a consumer;
- `keeps`: it renews leases as the store says;
- `delivery`: what it is about to end was delivered, and no handler is at work on it;
- `keeper`: the keeper that it waits for has started, and stands beside no handler. -/
structure Agent.MayShare (q : Nat) (lease : Span) (w : World) (a : Agent) : Prop where
  isNew : a.IsNew
  keeps : ∀ post ∈ a.post?, post.Keeps q lease
  delivery : ∀ d ∈ a.delivery? q, (∀ s ∈ w.plant.stores[q]?, d.receipt < s.receipts) ∧
    ∀ x ∈ w.handled q, x.1.receipt ≠ d.receipt
  keeper : ∀ k ∈ a.keeper?, k < w.plant.numbered ∧ ∀ x ∈ w.handled q, x.2 ≠ k

/-- What may happen around a store with a lease. Parties may do anything in any order; only the
clock, the renewals and those who come in from outside are held to something. -/
def Timely (q : Nat) (lease : Span) (w : World) : Event → Prop
  -- A renewal begins before the clock goes on from the first millisecond at which it is due.
  | .advance millis =>
    ∀ e ∈ w.plant.keepers, ∀ due ∈ e.due?, millis ≤ Rehearsal.Stage.ceilMillis due
  -- A renewal of the store meets no fault. A keeper that only ends attempts nothing.
  | .keeper k =>
    ∀ e ∈ w.plant.keeper? k, e.handle.store = q → e.keeper.end? = none →
      ∀ s ∈ w.plant.stores[q]?, s.fault? (Queue.Request.renew e.delivery).faults = none
  -- Nobody from outside reaches for the keeper beside a handler.
  | .stop k => ∀ x ∈ w.handled q, x.2 ≠ k
  | .leave k => ∀ x ∈ w.handled q, x.2 ≠ k
  | .join party => ∀ a ∈ party.agents, a.MayShare q lease w
  -- Messages are received, and not passed on: the lease of one that is passed on may be about
  -- to run out before its first renewal.
  | .assign post handle _ => post.Keeps q lease ∧ handle.store ≠ q
  | _ => True

instance (a : Agent) : Decidable a.IsNew :=
  match a with
  | .consumer c =>
    match h : c.activity with
    | .receiving call =>
      decidable_of_iff (call = Consumer.receive c.post) (by simp [Agent.IsNew, h])
    | .working .. => isFalse (by simp [Agent.IsNew, h])
    | .ended _ => isFalse (by simp [Agent.IsNew, h])
  | .crew _ => isTrue trivial
  | .caller _ => isTrue trivial
  | .receiver _ => isTrue trivial
  | .source _ => isTrue trivial
  | .collector _ => isTrue trivial

instance (q : Nat) (lease : Span) (post : Post) : Decidable (post.Keeps q lease) :=
  inferInstanceAs (Decidable (_ → _))

instance (q : Nat) (lease : Span) (w : World) (a : Agent) : Decidable (a.MayShare q lease w) :=
  decidable_of_iff
    (a.IsNew ∧ (∀ post ∈ a.post?, post.Keeps q lease) ∧
      (∀ d ∈ a.delivery? q, (∀ s ∈ w.plant.stores[q]?, d.receipt < s.receipts) ∧
        ∀ x ∈ w.handled q, x.1.receipt ≠ d.receipt) ∧
      ∀ k ∈ a.keeper?, k < w.plant.numbered ∧ ∀ x ∈ w.handled q, x.2 ≠ k)
    ⟨fun ⟨h₁, h₂, h₃, h₄⟩ => ⟨h₁, h₂, h₃, h₄⟩, fun h => ⟨h.isNew, h.keeps, h.delivery, h.keeper⟩⟩

instance (q : Nat) (lease : Span) (w : World) (event : Event) :
    Decidable (Timely q lease w event) :=
  match event with
  | .advance millis =>
    inferInstanceAs (Decidable (∀ e ∈ w.plant.keepers, ∀ due ∈ e.due?,
      millis ≤ Rehearsal.Stage.ceilMillis due))
  | .keeper k =>
    inferInstanceAs (Decidable (∀ e ∈ w.plant.keeper? k, e.handle.store = q →
      e.keeper.end? = none → ∀ s ∈ w.plant.stores[q]?,
        s.fault? (Queue.Request.renew e.delivery).faults = none))
  | .stop k => inferInstanceAs (Decidable (∀ x ∈ w.handled q, x.2 ≠ k))
  | .leave k => inferInstanceAs (Decidable (∀ x ∈ w.handled q, x.2 ≠ k))
  | .join party => inferInstanceAs (Decidable (∀ a ∈ party.agents, a.MayShare q lease w))
  | .assign post handle _ => inferInstanceAs (Decidable (post.Keeps q lease ∧ handle.store ≠ q))
  | .cancel _ => isTrue trivial
  | .inject .. => isTrue trivial
  | .observe _ => isTrue trivial
  | .keep .. => isTrue trivial
  | .board => isTrue trivial
  | .move .. => isTrue trivial
  | .drop _ => isTrue trivial

/-! ### What is promised -/

/-- Handlers have their messages for themselves:

- `leased`: the lease of what a handler is at work on has not run out;
- `withheld`: nobody who asks for messages now receives one that a handler is at work on;
- `alone`: no two handlers are at work on one message. -/
structure Exclusive (q : Nat) (w : World) (s : Store) : Prop where
  leased : ∀ x ∈ w.handled q, ∃ h ∈ s.held, h.receipt = x.1.receipt ∧
    s.idOf h.message = x.1.id ∧ h.message.content = x.1.content ∧ w.plant.now < h.expiry
  withheld : ∀ x ∈ w.handled q, ∀ most s' ds,
    s.attempt w.plant.now (.take most) = (s', .answered (.ok (.batch ds))) →
      ∀ d ∈ ds, d.id ≠ x.1.id
  alone : ((w.handled q).map fun x => x.1.id).Nodup

/-! ### The invariant -/

/-- An agent has neither the delivery nor the keeper of another one's handler. -/
def Agent.Respects (q : Nat) (b a : Agent) : Prop :=
  ∀ x ∈ a.handled? q, (∀ d ∈ b.delivery? q, d.receipt ≠ x.1.receipt) ∧ b.keeper? ≠ some x.2

/-- Two agents respect each other. -/
def Agent.Apart (q : Nat) (a b : Agent) : Prop := a.Respects q b ∧ b.Respects q a

instance (q : Nat) : Std.Symm (Agent.Apart q) := ⟨fun _ _ h => ⟨h.2, h.1⟩⟩

/-- Every delivery under a handler is guarded, and nobody else has it or its keeper. -/
structure Watched (q : Nat) (lease : Span) (w : World) (s : Store) : Prop where
  stored : w.plant.stores[q]? = some s
  lasting : s.lease = lease.toNanos
  orderly : Orderly s
  inShape : ∀ a ∈ w.agents, a.InShape
  keeps : ∀ a ∈ w.agents, ∀ post ∈ a.post?, post.Keeps q lease
  delivery : ∀ a ∈ w.agents, ∀ d ∈ a.delivery? q, d.receipt < s.receipts
  keeper : ∀ a ∈ w.agents, ∀ k ∈ a.keeper?, k < w.plant.numbered
  apart : w.agents.Pairwise (Agent.Apart q)
  guarded : ∀ a ∈ w.agents, ∀ x ∈ a.handled? q, Guarded q w.plant s x

/-- What has to be shown of an agent that an event brings, beside those that stay. -/
structure Newcomer (q : Nat) (lease : Span) (w' : World) (s' : Store) (rest : List Agent)
    (a : Agent) : Prop where
  inShape : a.InShape
  keeps : ∀ post ∈ a.post?, post.Keeps q lease
  delivery : ∀ d ∈ a.delivery? q, d.receipt < s'.receipts
  keeper : ∀ k ∈ a.keeper?, k < w'.plant.numbered
  apart : ∀ b ∈ rest, a.Apart q b
  guarded : ∀ x ∈ a.handled? q, Guarded q w'.plant s' x

section
variable {q m : Nat} {lease : Span} {w w' : World} {s s' : Store} {event : Event}

/-- Who has no handler at work is apart from everybody that it respects. -/
theorem Agent.apart_of_not_handled {a b : Agent} (ha : a.handled? q = none)
    (h : a.Respects q b) : a.Apart q b := by
  refine ⟨h, fun x hx => ?_⟩
  rw [ha] at hx
  cases hx

/-- Agents of whom one has a handler at work only if it is alone are apart. -/
theorem Agent.pairwise_apart {agents : List Agent}
    (h : ∀ a ∈ agents, ∀ x, a.handled? q = some x → agents = [a]) :
    agents.Pairwise (Agent.Apart q) := by
  by_cases hnone : ∀ a ∈ agents, a.handled? q = none
  · refine List.pairwise_of_forall_mem_list fun a ha b hb => ?_
    refine Agent.apart_of_not_handled (hnone a ha) fun x hx => ?_
    rw [hnone b hb] at hx
    cases hx
  · simp only [not_forall] at hnone
    obtain ⟨a, ha, hx⟩ := hnone
    obtain ⟨x, hx⟩ := Option.ne_none_iff_exists'.mp hx
    rw [h a ha x hx]
    exact List.pairwise_singleton _ _

/-- Who has not begun to work has no handler at work, and is in shape. -/
theorem Agent.IsNew.handled?_eq_none {a : Agent} (h : a.IsNew) : a.handled? q = none := by
  cases a with
  | consumer c =>
    have hnew : c.activity = .receiving (Consumer.receive c.post) := h
    show c.handled? q = none
    rw [Consumer.handled?, hnew]
  | _ => rfl

theorem Agent.IsNew.inShape {a : Agent} (h : a.IsNew) : a.InShape := by
  cases a with
  | consumer c =>
    have hnew : c.activity = .receiving (Consumer.receive c.post) := h
    show c.InShape
    rw [Consumer.InShape, Consumer.call?, Consumer.duty?, hnew]
  | _ => trivial

/-- Whoever takes messages from the store renews in time. -/
theorem Work.Post.Keeps.period {post : Post} (h : post.Keeps q lease)
    (hq : post.requests.store = q) :
    ∃ period, Lease.renewalPeriod lease = .ok period ∧ post.period = period.toNanos := by
  have hbetween := h hq
  unfold Post.between at hbetween
  cases hperiod : Lease.renewalPeriod lease with
  | error f =>
    rw [hperiod] at hbetween
    cases hbetween
  | ok period =>
    rw [hperiod] at hbetween
    exact ⟨period, rfl, congrArg Post.period (Except.ok.inj hbetween).symm⟩

namespace Watched

/-- Agents that have the turn are apart from those that stay, and these from one another. -/
theorem apart_of_perm (i : Watched q lease w s) {before rest : List Agent}
    (hperm : w.agents.Perm (before ++ rest)) :
    rest.Pairwise (Agent.Apart q) ∧ ∀ a ∈ before, ∀ b ∈ rest, a.Apart q b :=
  (List.pairwise_append.mp ((hperm.pairwise_iff symm).mp i.apart)).2

/-- What is done to the store does not end the delivery of a handler. -/
theorem not_closed (i : Watched q lease w s) {b : Agent} (hb : b ∈ w.agents)
    {x : Delivery × Nat} (hx : b.handled? q = some x) {deed : Queue.Deed}
    (hdone : w.DoneBy q deed) {d : Delivery} (hd : deed.closes? = some d) :
    d.receipt ≠ x.1.receipt := by
  rcases hdone with hnone | ⟨a, ha, call, hcall, hstore, rfl⟩
  · rw [hnone] at hd
    cases hd
  · -- The handler makes no call, so it is somebody else who ends the delivery.
    have hne : a ≠ b := by
      rintro rfl
      rw [(Agent.of_handled hx).2.2] at hcall
      cases hcall
    have hdelivery := Agent.delivery?_of_call (i.inShape a ha) hcall hstore hd
    exact ((i.apart.forall ha hb hne).1 x hx).1 d hdelivery

/-- An agent that stays keeps its guard. -/
theorem guarded_of_stay (i : Watched q lease w s) (allowed : Timely q lease w event)
    (happens : w.step event = some w') {before after rest : List Agent}
    (hperm : w.agents.Perm (before ++ rest)) (change : World.Change w w' event before after)
    (hs' : w'.plant.stores[q]? = some s')
    (hcase : s' = s ∨ ∃ deed outcome, w.DoneBy q deed ∧
      Store.Step w.plant.now s deed s' outcome)
    {b : Agent} (hb : b ∈ rest) {x : Delivery × Nat} (hx : b.handled? q = some x) :
    Guarded q w'.plant s' x := by
  have hagent : b ∈ w.agents := hperm.mem_iff.mpr (List.mem_append_right _ hb)
  obtain ⟨e, due, h, g⟩ := i.guarded b hagent x hx
  have hhandled := World.mem_handled hagent hx
  -- Nobody who has the turn has the keeper of an agent that stays.
  have hne : ∀ a ∈ before, a.keeper? ≠ some x.2 :=
    fun a ha => (((i.apart_of_perm hperm).2 a ha b hb).1 x hx).2
  -- Only the clock and the keeper itself move the guard.
  have hothers : (∀ millis, event ≠ .advance millis) → event.Spares x.2 →
      Guarded q w'.plant s' x := by
    intro hclock hspares
    refine g.of_touched ?_ (World.step_now happens hclock) hcase ?_
    · exact World.step_keeper? happens change g.found g.owned hspares hne
    · exact fun deed hdone d hd => i.not_closed hagent hx hdone hd
  cases event with
  | advance millis =>
    cases World.step_cases happens with
    | advanced forward =>
      obtain rfl : s = s' := Option.some.inj (i.stored.symm.trans hs')
      refine ⟨e, due, h, g.later forward ?_⟩
      exact allowed e (Plant.mem_of_keeper? g.found).1 due g.due?_eq_some
  | keeper k =>
    by_cases hk : k = x.2
    · subst hk
      cases World.step_cases happens with
      | kept made =>
        refine g.renew made i.stored hs' ?_
        exact allowed e g.found g.store g.end?_eq_none s i.stored
    · exact hothers (by simp) hk
  | stop k => exact hothers (by simp) (allowed x hhandled).symm
  | leave k => exact hothers (by simp) (allowed x hhandled).symm
  | _ => exact hothers (by simp) trivial

/-- What a turn produces fits in: it was there before, or it is new. -/
theorem turned (i : Watched q lease w s) (ko : w.plant.KeepersOrderly)
    (hlease : lease.toNanos = m * nanosPerMilli) (hm : 4 ≤ m)
    {worker : Option (Consumer × Work.ConsumerMove)} {before after rest : List Agent}
    (hperm : w.agents.Perm (before ++ rest))
    (turn : Agent.Turn w.plant worker before w'.plant after)
    (hs' : w'.plant.stores[q]? = some s') (hreceipts : s.receipts ≤ s'.receipts)
    {a : Agent} (ha : a ∈ after) : Newcomer q lease w' s' rest a := by
  have hbefore : ∀ b ∈ before, b ∈ w.agents := fun b hb =>
    hperm.mem_iff.mpr (List.mem_append_left _ hb)
  have hrest : ∀ b ∈ rest, b ∈ w.agents := fun b hb =>
    hperm.mem_iff.mpr (List.mem_append_right _ hb)
  have hshape : ∀ b ∈ before, b.InShape := fun b hb => i.inShape b (hbefore b hb)
  have hcross := (i.apart_of_perm hperm).2
  refine ⟨turn.inShape hshape ha, ?keeps, ?delivery, ?keeper,
    fun b hb => ⟨?respects, ?respected⟩, ?guarded⟩
  case keeps =>
    intro post hpost
    obtain ⟨b, hb, hpost⟩ := turn.post_cases ha hpost
    exact i.keeps b (hbefore b hb) post hpost
  case delivery =>
    intro d hd
    rcases turn.delivery_cases hshape i.stored hs' ha hd with ⟨b, hb, hd⟩ | ⟨-, hlt⟩
    · exact Nat.lt_of_lt_of_le (i.delivery b (hbefore b hb) d hd) hreceipts
    · exact hlt
  case keeper =>
    intro k hk
    rcases turn.keeper_cases ha hk with ⟨b, hb, hk⟩ | ⟨-, hlt⟩
    · exact Nat.lt_of_lt_of_le (i.keeper b (hbefore b hb) k hk) turn.numbered_le
    · exact hlt
  case respects =>
    intro x hx
    obtain ⟨hdelivery, hkeeper, -⟩ := Agent.of_handled hx
    have hreceipt := i.delivery b (hrest b hb) x.1 hdelivery
    have hnumber := i.keeper b (hrest b hb) x.2 hkeeper
    -- What is new has a higher receipt and a higher number than what is under a handler.
    refine ⟨fun d hd => ?_, fun hk => ?_⟩
    · rcases turn.delivery_cases hshape i.stored hs' ha hd with ⟨c, hc, hd⟩ | ⟨hge, -⟩
      · exact ((hcross c hc b hb).1 x hx).1 d hd
      · omega
    · rcases turn.keeper_cases ha hk with ⟨c, hc, hk⟩ | ⟨hge, -⟩
      · exact ((hcross c hc b hb).1 x hx).2 hk
      · omega
  case respected =>
    -- A handler begins only on what has just come, which nobody else can have.
    intro x hx
    obtain ⟨-, c, call, canceled, move, p₁, more, -, -, rfl, made, hk, -⟩ :=
      turn.handled_cases hshape ha hx
    obtain ⟨s₀, s₁, hs₀, rfl, st⟩ := Plant.stepCall_succeeded made
    obtain rfl : s₀ = s := Option.some.inj (hs₀.symm.trans i.stored)
    have hreceipt := (st.batch List.mem_cons_self).1
    have hnumber : x.2 = w.plant.numbered := hk
    refine ⟨fun d hd => ?_, fun hkeeper => ?_⟩
    · have hlt := i.delivery b (hrest b hb) d hd
      omega
    · have hlt := i.keeper b (hrest b hb) x.2 hkeeper
      omega
  case guarded =>
    intro x hx
    obtain ⟨-, c, call, canceled, move, p₁, more, hc, hpost, hcall, made, hk, hplant⟩ :=
      turn.handled_cases hshape ha hx
    obtain ⟨period, hperiod, hperiod'⟩ := (i.keeps _ (hbefore _ hc) c.post rfl).period hpost
    obtain ⟨hpos, hshort⟩ := Lease.add_milli_le_lease hperiod hlease hm
    rw [← hperiod'] at hpos hshort
    rw [← i.lasting] at hshort
    exact Guarded.begin made hk hplant hcall hpost ko.numbers_lt i.stored hs' hpos hshort

/-- Who joins fits in. -/
theorem joined (i : Watched q lease w s) {rest : List Agent}
    (hrest : ∀ b ∈ rest, b ∈ w.agents) (hreceipts : s.receipts ≤ s'.receipts)
    (hnumbered : w.plant.numbered ≤ w'.plant.numbered) {a : Agent}
    (ha : a.MayShare q lease w) : Newcomer q lease w' s' rest a := by
  -- Who has not begun has no handler, so only the others' handlers matter.
  have hnone := ha.isNew.handled?_eq_none (q := q)
  refine ⟨ha.isNew.inShape, ha.keeps, ?delivery, ?keeper, ?apart, ?guarded⟩
  case delivery =>
    intro d hd
    exact Nat.lt_of_lt_of_le ((ha.delivery d hd).1 s i.stored) hreceipts
  case keeper =>
    intro k hk
    exact Nat.lt_of_lt_of_le (ha.keeper k hk).1 hnumbered
  case apart =>
    intro b hb
    refine Agent.apart_of_not_handled hnone fun x hx => ?_
    have hhandled := World.mem_handled (hrest b hb) hx
    refine ⟨fun d hd => ((ha.delivery d hd).2 x hhandled).symm, fun hk => ?_⟩
    exact (ha.keeper x.2 hk).2 x hhandled rfl
  case guarded =>
    intro x hx
    rw [hnone] at hx
    cases hx

/-- Who is given a message from elsewhere fits in. -/
theorem assigned (i : Watched q lease w s) {post : Post} {handle : Queue.Handle} {d : Delivery}
    (allowed : Timely q lease w (.assign post handle d))
    (happens : w.step (.assign post handle d) = some w') {rest : List Agent}
    (hrest : ∀ b ∈ rest, b ∈ w.agents) :
    Newcomer q lease w' s' rest (.consumer (Consumer.given w.plant post handle d).2) := by
  obtain ⟨hkeeps, hstore⟩ := allowed
  have hnumbered : w'.plant.numbered = w.plant.numbered + 1 := by
    cases happens
    rfl
  -- The message comes from elsewhere, and the keeper beside it is a new one.
  have hdelivery : (Consumer.given w.plant post handle d).2.delivery? q = none := if_neg hstore
  have hnone : (Consumer.given w.plant post handle d).2.handled? q = none := if_neg hstore
  refine ⟨rfl, ?keeps, ?delivery, ?keeper, ?apart, ?guarded⟩
  case keeps =>
    intro post' hpost
    cases hpost
    exact hkeeps
  case delivery =>
    intro d' hd
    cases hdelivery.symm.trans hd
  case keeper =>
    intro k hk
    cases hk
    show w.plant.numbered < _
    omega
  case apart =>
    intro b hb
    refine Agent.apart_of_not_handled hnone fun x hx => ⟨fun d' hd => ?_, fun hk => ?_⟩
    · cases hdelivery.symm.trans hd
    · have hlt := i.keeper b (hrest b hb) x.2 (Agent.of_handled hx).2.1
      have hnew : w.plant.numbered = x.2 := Option.some.inj hk
      omega
  case guarded =>
    intro x hx
    cases hnone.symm.trans hx

/-- Every event leaves all that handlers are at work on guarded. -/
theorem step (i : Watched q lease w s) (ko : w.plant.KeepersOrderly)
    (hlease : lease.toNanos = m * nanosPerMilli) (hm : 4 ≤ m)
    (allowed : Timely q lease w event) (happens : w.step event = some w') :
    ∃ s', Watched q lease w' s' := by
  obtain ⟨s', hs', hcase⟩ := World.step_touched ko happens q s i.stored
  obtain ⟨before, after, rest, hperm, hperm', change⟩ := World.step_change happens
  have hnumbered := World.step_numbered_le happens
  obtain ⟨hreceipts, hlasting, ord⟩ :
      s.receipts ≤ s'.receipts ∧ s'.lease = s.lease ∧ Orderly s' := by
    rcases hcase with rfl | ⟨deed, outcome, -, st⟩
    · exact ⟨Nat.le_refl _, rfl, i.orderly⟩
    · exact ⟨st.receipts_le, st.name_lease.2, i.orderly.step st⟩
  have hrest : ∀ b ∈ rest, b ∈ w.agents := fun b hb =>
    hperm.mem_iff.mpr (List.mem_append_right _ hb)
  have hnew : ∀ a ∈ after, Newcomer q lease w' s' rest a := by
    intro a ha
    cases change with
    | turned turn => exact i.turned ko hlease hm hperm turn hs' hreceipts ha
    | joined party => exact i.joined hrest hreceipts hnumbered (allowed a ha)
    | assigned post handle d =>
      obtain rfl := List.mem_singleton.mp ha
      exact i.assigned allowed happens hrest
    | stayed => cases ha
  have hamong : after.Pairwise (Agent.Apart q) := by
    refine Agent.pairwise_apart fun a ha x hx => ?_
    cases change with
    | turned turn =>
      refine (turn.handled_cases (fun b hb => i.inShape b ?_) ha hx).1
      exact hperm.mem_iff.mpr (List.mem_append_left _ hb)
    | joined party =>
      rw [(allowed a ha).isNew.handled?_eq_none] at hx
      cases hx
    | assigned => rw [List.mem_singleton.mp ha]
    | stayed => cases ha
  -- What is to be shown of all agents is shown of the newcomers and of those that stay.
  have hagent : ∀ {P : Agent → Prop}, (∀ a ∈ after, P a) → (∀ a ∈ rest, P a) →
      ∀ a ∈ w'.agents, P a := by
    intro P hafter hrest a ha
    rcases List.mem_append.mp (hperm'.mem_iff.mp ha) with ha | ha
    · exact hafter a ha
    · exact hrest a ha
  refine ⟨s', hs', hlasting.trans i.lasting, ord, hagent ?_ ?_, hagent ?_ ?_, hagent ?_ ?_,
    hagent ?_ ?_, ?apart, hagent ?_ ?_⟩
  case apart =>
    rw [hperm'.pairwise_iff symm, List.pairwise_append]
    exact ⟨hamong, (i.apart_of_perm hperm).1, fun a ha b hb => (hnew a ha).apart b hb⟩
  · exact fun a ha => (hnew a ha).inShape
  · exact fun a ha => i.inShape a (hrest a ha)
  · exact fun a ha => (hnew a ha).keeps
  · exact fun a ha => i.keeps a (hrest a ha)
  · exact fun a ha => (hnew a ha).delivery
  · exact fun a ha d hd => Nat.lt_of_lt_of_le (i.delivery a (hrest a ha) d hd) hreceipts
  · exact fun a ha => (hnew a ha).keeper
  · exact fun a ha k hk => Nat.lt_of_lt_of_le (i.keeper a (hrest a ha) k hk) hnumbered
  · exact fun a ha => (hnew a ha).guarded
  · exact fun a ha x hx => i.guarded_of_stay allowed happens hperm change hs' hcase ha hx

/-- Who is watched has what it works on for itself. -/
theorem isExclusive (i : Watched q lease w s) : Exclusive q w s := by
  have hguard : ∀ x ∈ w.handled q, Guarded q w.plant s x := by
    intro x hx
    rw [World.handled_eq] at hx
    obtain ⟨a, ha, hx⟩ := List.mem_filterMap.mp hx
    exact i.guarded a ha x hx
  refine ⟨fun x hx => ?leased, fun x hx most s' ds hattempt d hd => ?withheld, ?alone⟩
  case leased =>
    obtain ⟨e, due, h, g⟩ := hguard x hx
    exact ⟨h, g.held, g.receipt, g.id, g.content, g.live⟩
  case withheld =>
    obtain ⟨e, due, h, g⟩ := hguard x hx
    have st := Store.step_perform w.plant.now s (.attempt (.take most))
    have hperform : s.perform w.plant.now (.attempt (.take most))
        = (s', some (.answered (.ok (.batch ds)))) := by
      rw [Store.perform, hattempt]
      rfl
    rw [hperform] at st
    rw [← g.id]
    exact st.batch_apart i.orderly hd g.held g.live
  case alone =>
    rw [World.handled_eq, List.Nodup, List.pairwise_map, List.pairwise_filterMap]
    refine i.apart.imp_of_mem fun {a b} ha hb hapart x hx y hy hid => ?_
    obtain ⟨e, due, h, g⟩ := i.guarded a ha x hx
    obtain ⟨e', due', h', g'⟩ := i.guarded b hb y hy
    -- One message is held under one receipt, and the two agents have different ones.
    have hsame := i.orderly.eq_of_id g.held g'.held ((g.id.trans hid).trans g'.id.symm)
    refine (hapart.1 y hy).1 x.1 (Agent.of_handled hx).1 ?_
    rw [← g.receipt, hsame, g'.receipt]

end Watched

variable {past : List Occurrence} {name : String}

/-- All that handlers are at work on is guarded in every run. -/
theorem Run.exists_watched {stores : List Store} (hlease : lease.toNanos = m * nanosPerMilli)
    (hm : 4 ≤ m) (hq : stores[q]? = some (.empty name lease.toNanos))
    (run : Run stores (Timely q lease) past w) : ∃ s, Watched q lease w s := by
  induction run with
  | start =>
    exact ⟨_, hq, rfl, .empty _ _, List.forall_mem_nil _, List.forall_mem_nil _,
      List.forall_mem_nil _, List.forall_mem_nil _, .nil, List.forall_mem_nil _⟩
  | step event before allowed happens ih =>
    obtain ⟨s, i⟩ := ih
    exact i.step before.keepersOrderly hlease hm allowed happens

/-- Mutual exclusion: while a handler is at work on a message its lease does not run out, nobody
receives the message, and no other handler is at work on it. -/
theorem Run.exclusive {stores : List Store} (hlease : lease.toNanos = m * nanosPerMilli)
    (hm : 4 ≤ m) (hq : stores[q]? = some (.empty name lease.toNanos))
    (run : Run stores (Timely q lease) past w) :
    ∃ s, w.plant.stores[q]? = some s ∧ Exclusive q w s := by
  obtain ⟨s, i⟩ := run.exists_watched hlease hm hq
  exact ⟨s, i.stored, i.isExclusive⟩

/-- A request is sent, and a consumer takes it. Its handler is at work for more than two leases
of five milliseconds, while its keeper renews twice. Another consumer looks for requests. -/
def slowHandler : List Event :=
  [.move 2 (.consumer (.call .go)),
    .join ⟨false, .consumer (.waiting ⟨⟨0, .none⟩, ⟨1, .none⟩, 0, 3750000⟩ true)⟩,
    .advance 12, .keeper 0, .advance 8, .keeper 0, .advance 4,
    .move 1 (.consumer (.call .go)),
    .join ⟨false, .consumer (.waiting ⟨⟨0, .none⟩, ⟨1, .none⟩, 0, 3750000⟩ false)⟩,
    .move 0 (.call .go), .join ⟨false, .call (.start ⟨0, .none⟩ (.send "a"))⟩]

/-- Mutual exclusion, a millisecond before the lease would run out. -/
theorem exclusive_slowHandler :
    ∃ past w s,
      (past, w) ∈ World.play [.empty "q" 5000000, .empty "r" 5000000] slowHandler ∧
      w.plant.now = 12000000 ∧ w.handled 0 = [(⟨0, "q-1", "a"⟩, 0)] ∧
      w.plant.stores[0]? = some s ∧ Exclusive 0 w s := by
  have hplayed : ∃ run ∈ World.play [.empty "q" 5000000, .empty "r" 5000000] slowHandler,
      run.2.plant.now = 12000000 ∧ run.2.handled 0 = [(⟨0, "q-1", "a"⟩, 0)] ∧
        ∀ o ∈ run.1, Timely 0 (.ofMillis 5) o.before o.event := by
    decide
  obtain ⟨⟨past, w⟩, hplay, hnow, hhandled, hallowed⟩ := hplayed
  have run := Run.play hplay hallowed
  have hlease : (Span.ofMillis 5).toNanos = 5 * nanosPerMilli := by decide
  obtain ⟨s, hs, hexclusive⟩ := Run.exclusive hlease (by decide) rfl run
  exact ⟨past, w, s, hplay, hnow, hhandled, hs, hexclusive⟩

end

end Leasework
