import Leasework.Proofs.Crew.Manned
import Leasework.Proofs.Queue.Wakeups

/-!
# `Leasework.Proofs.World.Wakeups`: nobody in a world oversleeps

`Queue.Traffic` is about calls that are nobody's. In a world calls belong to agents, keepers renew
leases on the side, and parties are dropped with all their calls. An agent that makes a call either
has just begun it or has just made a step of it (`Agent.Turn.call_cases`), so the invariant of
`Queue.Traffic` holds here as well: `Run.awake` says that no receiver oversleeps, whoever waits.
-/

set_option autoImplicit false

namespace Leasework

open Queue (Call Store)
open Work (Consumer ConsumerMove)

/-! ### Where the call of an agent comes from -/

/-- A call has just begun, or has just made a step on the stores. -/
def Queue.Call.IsFresh (p p' : Plant) (call : Call) : Prop :=
  call.phase = .ready ∨ ∃ c canceled move p₁,
    p.stepCall canceled c move = some (p₁, .going call) ∧ p'.stores = p₁.stores

section
variable {p p' : Plant}

/-- The call of a consumer that has made a step is fresh. -/
theorem Work.Consumer.Step.call_cases {canceled : Bool} {c c' : Consumer} {move : ConsumerMove}
    (st : c.Step canceled p move p' c') {call : Call} (hcall : c'.call? = some call) :
    call.IsFresh p p' := by
  have hconclude : ∀ {p₁ result}, (Consumer.conclude p₁ c result).2.call? = some call →
      call.phase = .ready := by
    intro p₁ result h
    rcases Consumer.conclude_consumer p₁ c result with he | ⟨exit, he⟩
    · rw [he] at h
      cases h
      rfl
    · rw [he] at h
      cases h
  cases st with
  | waited doing went =>
    cases hcall
    exact Or.inr ⟨_, _, _, _, went, rfl⟩
  | @proceeded _ _ _ job _ _ _ _ doing calling went =>
    have hsame : (job.proceed _).call? = some _ := hcall
    cases job with
    | sending | deleting | returning =>
      cases hsame
      exact Or.inr ⟨_, _, _, _, went, rfl⟩
    | _ => cases calling
  | unserved => exact Or.inl (hconclude hcall)
  | closed => exact Or.inl (hconclude hcall)
  | sent | unsent | settled | refused =>
    cases hcall
    exact Or.inl rfl
  | began | answered | crashed => cases hcall

/-- The wait that a receiver begins again and again begins anew each time. -/
def Agent.BeginsAnew (a : Agent) : Prop := ∀ call, a = .source call → call.phase = .ready

/-- Nobody changes the wait that a receiver begins again and again. -/
theorem Agent.lasting_beginsAnew : Agent.Lasting Agent.BeginsAnew := by
  intro p worker before p' after turn hbefore a ha call hsource
  subst hsource
  rcases turn.after_cases ha with ⟨_, _, c', _, -, -, heq, -⟩ | ⟨post, -, heq | heq⟩ | -
  · cases heq
  · cases heq
  · cases heq
  · cases turn with
    | resumed call₀ => exact hbefore _ (List.mem_singleton.mpr (by simpa using ha)) call rfl
    | _ => simp at ha

/-- The call of an agent that has taken a turn is fresh. -/
theorem Agent.Turn.call_cases {worker : Option (Consumer × ConsumerMove)}
    {before after : List Agent} (t : Agent.Turn p worker before p' after)
    (anew : ∀ a ∈ before, a.BeginsAnew) {a : Agent} (ha : a ∈ after) {call : Call}
    (hcall : a.call? = some call) : call.IsFresh p p' := by
  cases t with
  | worked st =>
    obtain rfl := List.mem_singleton.mp ha
    exact st.call_cases hcall
  | hired post =>
    rcases List.mem_pair.mp ha with rfl | rfl
    · cases hcall
    · cases hcall
      exact Or.inl rfl
  | called made | awaited made =>
    obtain rfl := List.mem_singleton.mp ha
    cases hcall
    exact Or.inr ⟨_, _, _, _, made, rfl⟩
  | @received _ _ _ _ reply made =>
    obtain ⟨deletion, hdeletion, rfl⟩ := List.mem_map.mp ha
    cases hcall
    cases reply with
    | done => cases hdeletion
    | batch ds =>
      obtain ⟨d, -, rfl⟩ := List.mem_map.mp hdeletion
      exact Or.inl rfl
  | resumed call₀ =>
    rcases List.mem_pair.mp ha with rfl | rfl
    · cases hcall
    · cases hcall
      exact Or.inl (anew _ List.mem_cons_self _ rfl)
  | _ => cases ha

end

/-! ### Receivers in a world -/

/-- Who joins has not made a step of any call yet. -/
def Arrives (_ : World) : Event → Prop
  | .join party =>
    ∀ a ∈ party.agents, a.BeginsAnew ∧ ∀ call, a.call? = some call → call.phase = .ready
  | _ => True

/-- The receivers that wait for a store do not oversleep. -/
structure World.Awake (q : Nat) (w : World) (s : Store) : Prop where
  stored : w.plant.stores[q]? = some s
  leases : s.Bounded w.plant.now
  wakes : ∀ a ∈ w.agents, ∀ call, a.call? = some call → call.handle.store = q →
    call.Wakes w.plant.now s

section
variable {q : Nat} {w w' : World} {s : Store} {event : Event}

/-- Whoever is blocked in front of a message can go on. -/
theorem World.Awake.canGo (i : w.Awake q s) {a : Agent} (ha : a ∈ w.agents) {call : Call}
    (hcall : a.call? = some call) (hstore : call.handle.store = q) {seen : Nat}
    {expiry : Option Nat} (hblocked : call.phase = .blocked seen expiry)
    (hvisible : s.visible ≠ []) : call.canGo w.plant.now s = true :=
  (i.wakes a ha call hcall hstore).canGo hblocked hvisible

/-- Every event leaves the receivers awake. -/
theorem World.Awake.step (i : w.Awake q s) (o : w.plant.KeepersOrderly)
    (anew : ∀ a ∈ w.agents, a.BeginsAnew) (allowed : Arrives w event)
    (happens : w.step event = some w') : ∃ s', w'.Awake q s' := by
  obtain ⟨s', hs', hcase⟩ := World.step_touched o happens q s i.stored
  have hlater := World.now_le_step happens
  have hbounded : s'.Bounded w.plant.now := by
    rcases hcase with rfl | ⟨deed, outcome, -, st⟩
    · exact i.leases
    · exact st.leases_bounded i.leases
  refine ⟨s', hs', hbounded.later hlater, fun a ha call hcall hstore seen expiry hblocked => ?_⟩
  refine Store.Wakes.later ?_ hlater
  -- A blocked call has not just begun, so it was there before or has just made a step.
  have hready : call.phase ≠ .ready := by
    rw [hblocked]
    exact nofun
  rcases World.agent_cases happens ha with
    ha | ⟨party, rfl, ha⟩ | ⟨post, handle, d, rfl, rfl⟩ | ⟨before, after, hbefore, ha, turn⟩
  · have hwakes := i.wakes a ha call hcall hstore seen expiry hblocked
    rcases hcase with rfl | ⟨deed, outcome, -, st⟩
    · exact hwakes
    · exact hwakes.step st
  · exact absurd ((allowed a ha).2 call hcall) hready
  · cases hcall
  · rcases turn.call_cases (fun b hb => anew b (hbefore b hb)) ha hcall with
      hphase | ⟨c, canceled, move, p₁, made, hstores⟩
    · exact absurd hphase hready
    · obtain ⟨s₀, s₁, hs₀, st, rfl⟩ := Plant.stepCall_cases made
      obtain rfl : c.handle.store = q := (congrArg Queue.Handle.store st.same.1).symm.trans hstore
      obtain rfl : s₀ = s := Option.some.inj (hs₀.symm.trans i.stored)
      rw [hstores, Plant.stores_withStore hs₀] at hs'
      obtain rfl : s₁ = s' := Option.some.inj hs'
      exact st.wakes i.leases seen expiry hblocked

/-- No receiver in a world oversleeps, whoever waits and whatever else happens. -/
theorem Run.awake {stores : List Store} {past : List Occurrence}
    (run : Run stores Arrives past w) {name : String} {lease : Nat}
    (hq : stores[q]? = some (.empty name lease)) : ∃ s, w.Awake q s := by
  induction run with
  | start => exact ⟨_, hq, List.forall_mem_nil _, List.forall_mem_nil _⟩
  | step event before allowed happens ih =>
    obtain ⟨s, i⟩ := ih
    refine i.step before.keepersOrderly ?_ allowed happens
    refine before.lasting Agent.lasting_beginsAnew (fun w party hjoin a ha => (hjoin a ha).1) ?_
    exact fun _ _ _ _ _ call hsource => by cases hsource

end

end Leasework
