import Leasework.Proofs.Queue.Calls

/-!
# `Leasework.Proofs.Queue.Wakeups`: no receiver sleeps in front of a message

A receiver that finds nothing falls asleep till a signal comes or the earliest lease runs out, and
works that moment out only once. Sends and returns signal. Reclaiming signals nobody, although it
makes messages visible, so a sleeping receiver depends on the moment that it has worked out.

* `Store.Covered` says that the moment is early enough: nothing is visible, no lease runs out
  before it, and no lease that begins from now on could. As long as there is no signal and the
  moment has not come, this stays so (`Covered.step`).
* `Store.Wakes` is the invariant of a sleeping receiver: there was a signal, or its moment has
  come, or its moment is early enough.
* `Traffic` is a store with all the calls that are going on there, and `Reachable.awake` says that
  the invariant holds of every receiver, whatever the calls do, in whatever order they do it, and in
  whatever order the store keeps its leases.
-/

set_option autoImplicit false

namespace Leasework.Queue

/-! ### How long leases last -/

section
variable {now now' : Nat} {s s' : Store} {deed : Deed} {outcome : Option Outcome}

/-- No lease lasts longer than a whole lease from now on. -/
def Store.Bounded (now : Nat) (s : Store) : Prop := ∀ h ∈ s.held, h.expiry ≤ now + s.lease

/-- Leases that are bounded now are bounded later. -/
theorem Store.Bounded.later (b : s.Bounded now) (hle : now ≤ now') : s.Bounded now' :=
  fun h hh => Nat.le_trans (b h hh) (Nat.add_le_add_right hle s.lease)

/-- Rearranged leases are as bounded as before. -/
theorem Store.Bounded.withHeld {held : List Held} (b : s.Bounded now) (same : held.Perm s.held) :
    (s.withHeld held).Bounded now := fun h hh => b h (same.mem_iff.mp hh)

/-- A step keeps leases bounded: those that it begins last a whole lease. -/
theorem Store.Step.leases_bounded (st : Store.Step now s deed s' outcome) (b : s.Bounded now) :
    s'.Bounded now := by
  have hreclaim : (s.reclaim now).Bounded now :=
    fun h hh => b h (Store.mem_held_reclaim.mp hh).1
  cases st with
  | faulted => exact b
  | injected => exact b
  | sent => exact b
  | bare => exact hreclaim
  | observed => exact hreclaim
  | lost => exact hreclaim
  | taken =>
    intro h hh
    rcases List.mem_append.mp hh with hh | hh
    · exact hreclaim h hh
    · exact Nat.le_of_eq (Store.mem_leasesOf hh).2.2.1
  | renewed =>
    intro h' hh'
    obtain ⟨h, hh, rfl⟩ := Store.mem_held_setExpiry.mp hh'
    split
    · exact Nat.le_refl _
    · exact hreclaim h hh
  | returned => exact fun h hh => hreclaim h (Store.mem_held_dropHeld.mp hh).1
  | deleted => exact fun h hh => hreclaim h (Store.mem_held_dropHeld.mp hh).1

/-! ### Falling asleep -/

/-- A receiver may sleep till an expiry, if there is one: nothing is visible, and it wakes up
before anything that is held can become visible. -/
structure Store.Covered (now : Nat) (expiry : Option Nat) (s : Store) : Prop where
  /-- Nothing is visible. -/
  none_visible : s.visible = []
  /-- No lease runs out before. -/
  held : ∀ h ∈ s.held, ∃ moment, expiry = some moment ∧ moment ≤ h.expiry
  /-- A lease that begins now does not run out before. -/
  lease : ∀ moment, expiry = some moment → moment ≤ now + s.lease

/-- What is covered now is covered later. -/
theorem Store.Covered.later {expiry : Option Nat} (c : s.Covered now expiry) (hle : now ≤ now') :
    s.Covered now' expiry :=
  { c with
    lease := fun moment hmoment =>
      Nat.le_trans (c.lease moment hmoment) (Nat.add_le_add_right hle s.lease) }

/-- It does not matter in which order the leases are. -/
theorem Store.Covered.withHeld {expiry : Option Nat} {held : List Held}
    (c : s.Covered now expiry) (same : held.Perm s.held) : (s.withHeld held).Covered now expiry :=
  { c with held := fun h hh => c.held h (same.mem_iff.mp hh) }

/-- A receiver that finds nothing is covered by the earliest lease. -/
theorem Store.covered_earliestExpiry (b : s.Bounded now) (none_visible : s.visible = []) :
    s.Covered now s.earliestExpiry? := by
  refine ⟨none_visible, fun h hh => ?_, fun moment hmoment => ?_⟩
  · have hmem : h.expiry ∈ s.held.map Held.expiry := List.mem_map_of_mem hh
    obtain ⟨moment, hmoment⟩ := Option.isSome_iff_exists.mp (List.isSome_min?_of_mem hmem)
    exact ⟨moment, hmoment, (List.min?_eq_some_iff.mp hmoment).2 _ hmem⟩
  · obtain ⟨h, hh, rfl⟩ := List.mem_map.mp (List.min?_eq_some_iff.mp hmoment).1
    exact b h hh

/-- Before its moment there is nothing to reclaim for a receiver that is covered. -/
theorem Store.Covered.reclaim_eq {expiry : Option Nat} (c : s.Covered now expiry)
    (asleep : Call.reached now expiry = false) : s.reclaim now = s := by
  have hlive : ∀ h ∈ s.held, now < h.expiry := by
    intro h hh
    obtain ⟨moment, rfl, hle⟩ := c.held h hh
    have hlt : now < moment := Nat.not_le.mp (of_decide_eq_false asleep)
    exact Nat.lt_of_lt_of_le hlt hle
  have hexpired : (s.held.filter fun h => h.expiry ≤ now) = [] :=
    List.filter_eq_nil_iff.mpr fun h hh => by simpa using hlive h hh
  have hheld : (s.held.filter fun h => now < h.expiry) = s.held :=
    List.filter_eq_self.mpr fun h hh => by simpa using hlive h hh
  unfold Store.reclaim
  rw [hexpired, hheld]
  rfl

/-- Before its moment a receiver stays covered as long as nobody signals. -/
theorem Store.Covered.step {expiry : Option Nat} (c : s.Covered now expiry)
    (asleep : Call.reached now expiry = false) (st : Store.Step now s deed s' outcome)
    (unsignaled : s'.signals = s.signals) : s'.Covered now expiry := by
  have hreclaim := c.reclaim_eq asleep
  cases st with
  | faulted => exact { c with }
  | injected => exact { c with }
  | bare => exact hreclaim.symm ▸ c
  | observed => exact hreclaim.symm ▸ c
  | lost => exact hreclaim.symm ▸ c
  | taken most safe some_visible =>
    rw [hreclaim] at some_visible
    exact absurd (Store.batch_eq_nil.mpr c.none_visible) some_visible
  | renewed =>
    rw [hreclaim]
    refine ⟨c.none_visible, fun h' hh' => ?_, c.lease⟩
    obtain ⟨h, hh, rfl⟩ := Store.mem_held_setExpiry.mp hh'
    obtain ⟨moment, hmoment, hle⟩ := c.held h hh
    refine ⟨moment, hmoment, ?_⟩
    -- The renewed lease begins now, and the others are as they were.
    split
    · exact c.lease moment hmoment
    · exact hle
  | deleted =>
    rw [hreclaim]
    exact ⟨c.none_visible, fun h hh => c.held h (Store.mem_held_dropHeld.mp hh).1, c.lease⟩
  | sent => exact absurd unsignaled (Nat.succ_ne_self _)
  | returned => exact absurd unsignaled (Nat.succ_ne_self _)

/-- Nobody takes a signal back. -/
theorem Store.Step.signals_le (st : Store.Step now s deed s' outcome) :
    s.signals ≤ s'.signals := by
  cases st with
  | sent => exact Nat.le_succ _
  | returned => exact Nat.le_succ _
  | _ => exact Nat.le_refl _

/-! ### Waking up -/

/-- A receiver that sleeps since some signals, till an expiry if there is one, does not oversleep:
without a new signal its moment has come, or it is covered. -/
structure Store.Wakes (now seen : Nat) (expiry : Option Nat) (s : Store) : Prop where
  /-- The signals that it has seen were given. -/
  seen_le : seen ≤ s.signals
  /-- Without a new one it may sleep, or its moment has come. -/
  covered : seen = s.signals → Call.reached now expiry = false → s.Covered now expiry

namespace Store.Wakes
variable {seen : Nat} {expiry : Option Nat}

/-- A moment that has come stays in the past. -/
theorem later (w : s.Wakes now seen expiry) (hle : now ≤ now') : s.Wakes now' seen expiry := by
  refine ⟨w.seen_le, fun hseen asleep => ?_⟩
  have hearlier : Call.reached now expiry = false := by
    cases expiry with
    | none => rfl
    | some moment =>
      exact decide_eq_false fun hcome => of_decide_eq_false asleep (Nat.le_trans hcome hle)
  exact (w.covered hseen hearlier).later hle

/-- In whatever order the leases are, a receiver does not oversleep. -/
theorem withHeld {held : List Held} (w : s.Wakes now seen expiry) (same : held.Perm s.held) :
    (s.withHeld held).Wakes now seen expiry where
  seen_le := w.seen_le
  covered hseen asleep := (w.covered hseen asleep).withHeld same

/-- Whatever is done to the store, a receiver does not oversleep. -/
theorem step (w : s.Wakes now seen expiry) (st : Store.Step now s deed s' outcome) :
    s'.Wakes now seen expiry := by
  refine ⟨Nat.le_trans w.seen_le st.signals_le, fun hseen asleep => ?_⟩
  -- No signal since the receiver fell asleep, so none by this step.
  have hsignals := st.signals_le
  have hle := w.seen_le
  have unsignaled : s'.signals = s.signals := by omega
  exact (w.covered (hseen.trans unsignaled) asleep).step asleep st unsignaled

/-- A receiver that does not oversleep goes on when something is visible: there was a signal, or
its moment has come. -/
theorem of_visible (w : s.Wakes now seen expiry) (hvisible : s.visible ≠ []) :
    seen < s.signals ∨ ∃ moment, expiry = some moment ∧ moment ≤ now := by
  rcases Nat.lt_or_eq_of_le w.seen_le with hlt | heq
  · exact Or.inl hlt
  · refine Or.inr ?_
    cases hreached : Call.reached now expiry with
    | false => exact absurd (w.covered heq hreached).none_visible hvisible
    | true =>
      cases expiry with
      | none => cases hreached
      | some moment => exact ⟨moment, rfl, of_decide_eq_true hreached⟩

end Store.Wakes

/-- A call that has nothing to wait for, or does not oversleep. -/
def Call.Wakes (now : Nat) (s : Store) (c : Call) : Prop :=
  ∀ seen expiry, c.phase = .blocked seen expiry → s.Wakes now seen expiry

/-- A blocked call that does not oversleep can go on when something is visible. -/
theorem Call.Wakes.canGo {c : Call} (w : c.Wakes now s) {seen : Nat} {expiry : Option Nat}
    (hblocked : c.phase = .blocked seen expiry) (hvisible : s.visible ≠ []) :
    c.canGo now s = true := by
  have hcanGo : c.canGo now s = (seen ≠ s.signals || Call.reached now expiry) := by
    rw [Call.canGo, hblocked]
  rw [hcanGo]
  rcases (w seen expiry hblocked).of_visible hvisible with hsignaled | ⟨moment, rfl, hcome⟩
  · rw [decide_eq_true (Nat.ne_of_lt hsignaled), Bool.true_or]
  · rw [Call.reached, decide_eq_true hcome, Bool.or_true]

/-- A call that is blocked by a step has just found nothing, and does not oversleep. -/
theorem Call.Step.wakes {canceled : Bool} {c c' : Call} (st : c.Step canceled now s s' (.going c'))
    (b : s.Bounded now) : c'.Wakes now s' := by
  intro seen expiry hblocked
  cases st with
  | blocked st =>
    cases hblocked
    refine ⟨Nat.le_refl _, fun _ _ => ?_⟩
    have hbounded := st.leases_bounded b
    generalize c.request = request at st
    cases st with
    | bare _ _ none_visible => exact Store.covered_earliestExpiry hbounded none_visible
  | throttled => cases hblocked

end

/-! ### All calls of a store -/

/-- A store with the calls that are going on there, at a moment. -/
structure Traffic where
  /-- The moment. -/
  now : Nat
  /-- The store. -/
  store : Store
  /-- The calls. -/
  calls : List Call

namespace Traffic

/-- Something that happens in the traffic. -/
inductive Move where
  /-- The clock comes to a moment. -/
  | pass (now : Nat)
  /-- Something is done to the store at once: somebody looks, or injects faults, or makes an
  attempt that no call is behind. -/
  | perform (deed : Deed)
  /-- The store keeps its leases in another order. -/
  | rearrange (held : List Held)
  /-- A call begins. -/
  | begin (handle : Handle) (request : Request)
  /-- A call makes a step, canceled or not. -/
  | step (call : Nat) (canceled : Bool) (move : CallMove)
  /-- A call is dropped. -/
  | drop (call : Nat)

/-- Makes a move, if it is possible. -/
def step (v : Traffic) : Move → Option Traffic
  | .pass now => if v.now ≤ now then some { v with now := now } else none
  | .perform deed => some { v with store := (v.store.perform v.now deed).1 }
  | .rearrange held =>
    if held.Perm v.store.held then some { v with store := v.store.withHeld held } else none
  | .begin handle request => some { v with calls := v.calls ++ [.start handle request] }
  | .step i canceled move => do
    let c ← v.calls[i]?
    let (s, progress) ← c.step canceled v.now v.store move
    match progress with
    | .going c => some { v with store := s, calls := v.calls.set i c }
    | .ended _ => some { v with store := s, calls := v.calls.eraseIdx i }
  | .drop i => some { v with calls := v.calls.eraseIdx i }

/-- What can come of an empty store. -/
inductive Reachable (name : String) (lease : Nat) : Traffic → Prop
  /-- Nothing has happened. -/
  | start (now : Nat) : Reachable name lease ⟨now, .empty name lease, []⟩
  /-- One more move. -/
  | step {v v' : Traffic} (move : Move) (before : Reachable name lease v)
      (happens : v.step move = some v') : Reachable name lease v'

/-- Makes moves one after the other. -/
def play (v : Traffic) : List Move → Option Traffic
  | [] => some v
  | move :: moves => (v.step move).bind fun v => v.play moves

/-- What is played can come. -/
theorem Reachable.play {name : String} {lease : Nat} {v v' : Traffic} {moves : List Move}
    (r : Reachable name lease v) (h : v.play moves = some v') : Reachable name lease v' := by
  induction moves generalizing v with
  | nil =>
    cases h
    exact r
  | cons move moves ih =>
    obtain ⟨v₁, happens, hrest⟩ := Option.bind_eq_some_iff.mp h
    exact ih (.step move r happens) hrest

/-- What every traffic keeps: leases are bounded, and no receiver oversleeps. -/
structure Awake (v : Traffic) : Prop where
  /-- Leases are bounded. -/
  leases : v.store.Bounded v.now
  /-- No receiver oversleeps. -/
  wakes : ∀ c ∈ v.calls, c.Wakes v.now v.store

namespace Awake
variable {v : Traffic}

/-- What is done to the store wakes up whoever has to. -/
theorem performed {s : Store} {deed : Deed} {outcome : Option Outcome} (a : Awake v)
    (st : Store.Step v.now v.store deed s outcome) : Awake { v with store := s } where
  leases := st.leases_bounded a.leases
  wakes c hc seen expiry hblocked := (a.wakes c hc seen expiry hblocked).step st

/-- It does not matter which calls there are, as long as each of them wakes up. -/
theorem withCalls {calls : List Call} (a : Awake v)
    (h : ∀ c ∈ calls, c ∈ v.calls ∨ c.Wakes v.now v.store) : Awake { v with calls := calls } where
  leases := a.leases
  wakes c hc := (h c hc).elim (a.wakes c) id

/-- Every move keeps everybody awake. -/
theorem step {v' : Traffic} {move : Move} (a : Awake v) (h : v.step move = some v') :
    Awake v' := by
  cases move with
  | pass now =>
    simp only [Traffic.step] at h
    split at h
    · rename_i hle
      cases h
      exact ⟨a.leases.later hle, fun c hc seen expiry hblocked =>
        (a.wakes c hc seen expiry hblocked).later hle⟩
    · cases h
  | perform deed =>
    cases h
    exact a.performed (Store.step_perform v.now v.store deed)
  | rearrange held =>
    simp only [Traffic.step] at h
    split at h
    · rename_i same
      cases h
      exact ⟨a.leases.withHeld same, fun c hc seen expiry hblocked =>
        (a.wakes c hc seen expiry hblocked).withHeld same⟩
    · cases h
  | begin handle request =>
    cases h
    refine a.withCalls fun c hc => (List.mem_append.mp hc).imp id fun hc => ?_
    -- A call that begins is ready, and waits for nothing.
    rw [List.mem_singleton.mp hc]
    exact nofun
  | step i canceled move =>
    simp only [Traffic.step, bind, Option.bind_eq_some_iff] at h
    obtain ⟨c, -, ⟨s, progress⟩, made, heq⟩ := h
    have st := Call.step_cases made
    have hstore : Awake { v with store := s } := by
      rcases st.store with rfl | ⟨outcome, hdone⟩
      · exact a
      · exact a.performed hdone
    cases progress with
    | going c' =>
      cases heq
      refine hstore.withCalls fun c₁ hc₁ => (List.mem_or_eq_of_mem_set hc₁).imp id ?_
      rintro rfl
      exact st.wakes a.leases
    | ended result =>
      cases heq
      exact hstore.withCalls fun c₁ hc₁ => Or.inl (List.mem_of_mem_eraseIdx hc₁)
  | drop i =>
    cases h
    exact a.withCalls fun c hc => Or.inl (List.mem_of_mem_eraseIdx hc)

end Awake

namespace Reachable
variable {name : String} {lease : Nat} {v : Traffic}

/-- Everybody is awake, whatever has happened. -/
theorem awake (r : Reachable name lease v) : Awake v := by
  induction r with
  | start => exact ⟨List.forall_mem_nil _, List.forall_mem_nil _⟩
  | step move _ happens ih => exact ih.step happens

/-- No wake-up is lost. Whatever calls there are, in whatever order they make their steps and in
whatever order the leases are kept, when a message is visible every receiver that is blocked has
been signaled since it looked, or sleeps till a moment that has come. -/
theorem roused (r : Reachable name lease v) (hvisible : v.store.visible ≠ []) {c : Call}
    (hc : c ∈ v.calls) {seen : Nat} {expiry : Option Nat}
    (hblocked : c.phase = .blocked seen expiry) :
    seen < v.store.signals ∨ ∃ moment, expiry = some moment ∧ moment ≤ v.now :=
  (r.awake.wakes c hc seen expiry hblocked).of_visible hvisible

end Reachable

/-- A message is sent, taken, and reclaimed when its lease has run out by somebody who looks. In
the meantime a second receiver has fallen asleep. -/
def observedExpiry : List Move :=
  [.begin ⟨0, .none⟩ (.send "a"), .step 0 false .go, .begin ⟨0, .none⟩ (.take 1),
    .step 0 false .go, .pass 3, .begin ⟨0, .none⟩ (.take 1), .step 0 false .go, .pass 10,
    .perform .observe]

/-- Nobody tells the second receiver that the message is back, but its moment has come. -/
theorem roused_observedExpiry :
    ∃ v, (⟨0, .empty "requests" 10, []⟩ : Traffic).play observedExpiry = some v ∧
      v.store.visible = [⟨1, "a", 1⟩] ∧ v.calls = [⟨⟨0, .none⟩, .take 1, .blocked 1 (some 10)⟩] ∧
      v.store.signals = 1 ∧
      (1 < v.store.signals ∨ ∃ moment, some 10 = some moment ∧ moment ≤ v.now) := by
  have played : (⟨0, .empty "requests" 10, []⟩ : Traffic).play observedExpiry = some _ := rfl
  refine ⟨_, played, rfl, rfl, rfl, ?_⟩
  exact ((Reachable.start 0).play played).roused (by decide) List.mem_cons_self rfl

end Traffic

end Leasework.Queue
