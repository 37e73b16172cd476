import Leasework.Proofs.World.Runs

/-!
# `Leasework.Proofs.World.Deliveries`: who has which delivery

An agent *has* a delivery from a store when it may give the message back or delete it: it
works on the message, or it is about to end the delivery. While the handler is at work on it,
the delivery is *handled*, and a keeper stands beside it.

Nobody comes by a delivery or a keeper but by a new one. `Agent.Turn.delivery_cases` and
`Agent.Turn.keeper_cases` say that what an agent has after a turn was had before the turn, or
has just been handed out. `Agent.Turn.handled_cases` says that a handler begins its work only
on what has just come. So agents that were apart stay apart.
-/

set_option autoImplicit false

namespace Leasework

open Queue (Call Delivery Store)
open Work (Consumer ConsumerMove Job)

/-! ### Deliveries of agents -/

/-- The delivery from a store that a consumer works on. -/
def Work.Consumer.delivery? (q : Nat) (c : Consumer) : Option Delivery :=
  match c.activity with
  | .working h d _ _ => if h.store = q then some d else none
  | _ => none

/-- The delivery from a store that the handler of a consumer is at work on, and the number of
the keeper beside it. -/
def Work.Consumer.handled? (q : Nat) (c : Consumer) : Option (Delivery × Nat) :=
  match c.activity with
  | .working h d k .handling => if h.store = q then some (d, k) else none
  | _ => none

/-- The delivery from a store that a call is about to end. -/
def Queue.Call.ending? (q : Nat) (call : Call) : Option Delivery :=
  if call.handle.store = q then call.request.closes? else none

/-- The deliveries from a store that handlers are at work on, each with the number of the
keeper beside it. -/
def World.handled (q : Nat) (w : World) : List (Delivery × Nat) :=
  w.parties.flatMap fun party => party.consumers.filterMap fun c => c.1.handled? q

namespace Agent

/-- The delivery from a store that an agent has. -/
def delivery? (q : Nat) : Agent → Option Delivery
  | .consumer c => c.delivery? q
  | .caller call => call.ending? q
  | .receiver call => call.ending? q
  | .source call => call.ending? q
  | _ => none

/-- The delivery from a store that the handler of an agent is at work on, and the number of
the keeper beside it. -/
def handled? (q : Nat) : Agent → Option (Delivery × Nat)
  | .consumer c => c.handled? q
  | _ => none

/-- The post of an agent. -/
def post? : Agent → Option Work.Post
  | .consumer c => some c.post
  | .crew post => some post
  | _ => none

/-- A consumer makes the call that belongs to what it does. -/
def InShape : Agent → Prop
  | .consumer c => c.InShape
  | _ => True

end Agent

section
variable {q : Nat}

/-- What a consumer works on. -/
theorem Work.Consumer.delivery?_eq_some {c : Consumer} {d : Delivery} :
    c.delivery? q = some d ↔ ∃ h k job, c.activity = .working h d k job ∧ h.store = q := by
  unfold Consumer.delivery?
  cases hdoing : c.activity with
  | working h d' k job =>
    show (if h.store = q then some d' else none) = some d ↔ _
    by_cases hstore : h.store = q
    · rw [if_pos hstore, Option.some.injEq]
      constructor
      · rintro rfl
        exact ⟨h, k, job, rfl, hstore⟩
      · rintro ⟨h', k', job', heq, -⟩
        cases heq
        rfl
    · rw [if_neg hstore]
      constructor
      · exact nofun
      · rintro ⟨h', k', job', heq, hstore'⟩
        cases heq
        exact absurd hstore' hstore
  | _ => simp

/-- What the handler of a consumer is at work on. -/
theorem Work.Consumer.handled?_eq_some {c : Consumer} {x : Delivery × Nat} :
    c.handled? q = some x ↔ ∃ h, c.activity = .working h x.1 x.2 .handling ∧ h.store = q := by
  unfold Consumer.handled?
  constructor
  · intro heq
    split at heq
    · rename_i h d k hdoing
      split at heq
      · rename_i hstore
        cases heq
        exact ⟨h, hdoing, hstore⟩
      · cases heq
    · cases heq
  · rintro ⟨h, hdoing, hstore⟩
    simp only [hdoing, if_pos hstore]

/-- Who only makes calls has no consumer, no post and no keeper. -/
theorem Agent.OnlyCalls.handled?_eq_none {a : Agent} (h : a.OnlyCalls) : a.handled? q = none := by
  obtain ⟨call, rfl | rfl | rfl⟩ := h <;> rfl

theorem Agent.OnlyCalls.post?_eq_none {a : Agent} (h : a.OnlyCalls) : a.post? = none := by
  obtain ⟨call, rfl | rfl | rfl⟩ := h <;> rfl

theorem Agent.OnlyCalls.keeper?_eq_none {a : Agent} (h : a.OnlyCalls) : a.keeper? = none := by
  obtain ⟨call, rfl | rfl | rfl⟩ := h <;> rfl

theorem Agent.OnlyCalls.inShape {a : Agent} (h : a.OnlyCalls) : a.InShape := by
  obtain ⟨call, rfl | rfl | rfl⟩ := h <;> trivial

/-- Whose handler is at work on a delivery has that delivery and its keeper, and makes no
call. -/
theorem Agent.of_handled {a : Agent} {x : Delivery × Nat} (h : a.handled? q = some x) :
    a.delivery? q = some x.1 ∧ a.keeper? = some x.2 ∧ a.call? = none := by
  cases a with
  | consumer c =>
    obtain ⟨handle, hdoing, hstore⟩ := Consumer.handled?_eq_some.mp h
    refine ⟨Consumer.delivery?_eq_some.mpr ⟨handle, x.2, _, hdoing, hstore⟩, ?_, ?_⟩
    · show c.keeper? = _
      rw [Consumer.keeper?, hdoing]
    · show c.call? = _
      rw [Consumer.call?, hdoing]
      rfl
  | _ => cases h

/-- A consumer in shape that waits for a request waits at its post. -/
theorem Agent.InShape.handle_of_receiving {c : Consumer} (hs : (Agent.consumer c).InShape)
    {call : Call} (hreceiving : c.activity = .receiving call) : call.handle = c.post.requests := by
  have hshape : c.InShape := hs
  exact (hshape.errand (by rw [Consumer.call?, hreceiving])
    (by rw [Consumer.duty?, hreceiving])).1

/-- Who asks for the end of a delivery has that delivery. -/
theorem Agent.delivery?_of_call {a : Agent} (hs : a.InShape) {call : Call} {d : Delivery}
    (hcall : a.call? = some call) (hstore : call.handle.store = q)
    (hends : call.request.closes? = some d) : a.delivery? q = some d := by
  have hending : call.ending? q = some d := by
    rw [Queue.Call.ending?, if_pos hstore]
    exact hends
  cases a with
  | consumer c =>
    have hthrough := Queue.Request.delivery?_of_closes? hends
    obtain ⟨k, hdoing | ⟨result, hdoing⟩⟩ := Consumer.InShape.working hs hcall hthrough
    · exact Consumer.delivery?_eq_some.mpr ⟨_, k, _, hdoing, hstore⟩
    · exact Consumer.delivery?_eq_some.mpr ⟨_, k, _, hdoing, hstore⟩
  | caller call₀ =>
    cases hcall
    exact hending
  | receiver call₀ =>
    cases hcall
    exact hending
  | _ => cases hcall

/-- What handlers are at work on is what agents are at work on. -/
theorem World.handled_eq (w : World) : w.handled q = w.agents.filterMap (Agent.handled? q) := by
  -- The slots of a crew are numbered on the one side, and bare on the other. So the numbers
  -- start anywhere in the induction.
  have hslots : ∀ f : Crew.Slot Consumer × Nat → Option (Consumer × (ConsumerMove → PartyMove)),
      (∀ c i, (f (.running c, i)).map Prod.fst = some c) →
      (∀ slot i, Agent.ofSlot slot = [] → f (slot, i) = none) →
      ∀ (slots : List (Crew.Slot Consumer)) (n : Nat),
        ((slots.zipIdx n).filterMap f).filterMap (fun c => c.1.handled? q)
          = (slots.flatMap Agent.ofSlot).filterMap (Agent.handled? q) := by
    intro f hrunning hnobody slots
    induction slots with
    | nil => exact fun _ => rfl
    | cons slot slots ih =>
      intro n
      rw [List.zipIdx_cons, List.flatMap_cons, List.filterMap_append, ← ih (n + 1)]
      cases slot with
      | running c =>
        obtain ⟨x, hx, rfl⟩ := Option.map_eq_some_iff.mp (hrunning c n)
        have hagent : (Agent.consumer x.1).handled? q = x.1.handled? q := rfl
        cases hhandled : x.1.handled? q <;> simp [Agent.ofSlot, hagent, hx, hhandled]
      | pausing till => simp [Agent.ofSlot, hnobody (.pausing till) n rfl]
      | _ => simp [Agent.ofSlot, hnobody .over n rfl]
  unfold handled agents
  rw [List.filterMap_flatMap]
  refine List.flatMap_congr fun party _ => ?_
  obtain ⟨isCanceled, task⟩ := party
  cases task with
  | consumer c => rfl
  | crew r =>
    refine hslots _ (fun _ _ => rfl) (fun slot i hnobody => ?_) r.roster.slots 0
    cases slot with
    | running c => cases hnobody
    | _ => rfl
  | bench r =>
    refine (List.filterMap_eq_nil_iff.mpr fun a ha => ?_).symm
    exact (Agent.onlyCalls_of_mem_ofBench ha).handled?_eq_none
  | _ => rfl

theorem World.mem_handled {w : World} {a : Agent} (ha : a ∈ w.agents) {x : Delivery × Nat}
    (hx : a.handled? q = some x) : x ∈ w.handled q := by
  rw [handled_eq]
  exact List.mem_filterMap.mpr ⟨a, ha, hx⟩

/-! ### What a turn hands out -/

namespace Agent.Turn
variable {p p' : Plant} {worker : Option (Consumer × ConsumerMove)} {before after : List Agent}

/-- What a turn produces: a consumer that has made a step, a crew and a consumer that it has
sent to its post, or agents that make calls. -/
theorem after_cases (t : Turn p worker before p' after) {a : Agent} (ha : a ∈ after) :
    (∃ canceled c c' move, before = [.consumer c] ∧ after = [.consumer c'] ∧ a = .consumer c' ∧
        c.Step canceled p move p' c') ∨
      (∃ post, before = [.crew post] ∧ (a = .crew post ∨ a = .consumer (.waiting post true))) ∨
      a.OnlyCalls := by
  cases t with
  | worked st => exact Or.inl ⟨_, _, _, _, rfl, rfl, List.mem_singleton.mp ha, st⟩
  | hired post =>
    refine Or.inr (Or.inl ⟨post, rfl, ?_⟩)
    exact (List.mem_cons.mp ha).imp id List.mem_singleton.mp
  | called =>
    obtain rfl := List.mem_singleton.mp ha
    exact Or.inr (Or.inr ⟨_, Or.inl rfl⟩)
  | awaited =>
    obtain rfl := List.mem_singleton.mp ha
    exact Or.inr (Or.inr ⟨_, Or.inr (Or.inl rfl)⟩)
  | received =>
    obtain ⟨call, -, rfl⟩ := List.mem_map.mp ha
    exact Or.inr (Or.inr ⟨call, Or.inl rfl⟩)
  | resumed =>
    rcases List.mem_cons.mp ha with rfl | ha
    · exact Or.inr (Or.inr ⟨_, Or.inr (Or.inr rfl)⟩)
    · obtain rfl := List.mem_singleton.mp ha
      exact Or.inr (Or.inr ⟨_, Or.inr (Or.inl rfl)⟩)
  | _ => cases ha

/-- A turn keeps the consumers in shape. -/
theorem inShape (t : Turn p worker before p' after) (hbefore : ∀ a ∈ before, a.InShape)
    {a : Agent} (ha : a ∈ after) : a.InShape := by
  rcases t.after_cases ha with ⟨canceled, c, c', move, rfl, -, rfl, st⟩ |
    ⟨post, -, rfl | rfl⟩ | hcalls
  · exact st.inShape (hbefore _ List.mem_cons_self)
  · trivial
  · exact Consumer.inShape_waiting post true
  · exact hcalls.inShape

/-- The posts after a turn are posts from before it. -/
theorem post_cases (t : Turn p worker before p' after) {a : Agent} (ha : a ∈ after)
    {post : Work.Post} (hpost : a.post? = some post) : ∃ b ∈ before, b.post? = some post := by
  rcases t.after_cases ha with ⟨canceled, c, c', move, rfl, -, rfl, st⟩ |
    ⟨post', rfl, rfl | rfl⟩ | hcalls
  · refine ⟨_, List.mem_cons_self, ?_⟩
    rw [← hpost]
    exact congrArg some st.post.symm
  · exact ⟨_, List.mem_cons_self, hpost⟩
  · exact ⟨_, List.mem_cons_self, hpost⟩
  · rw [hcalls.post?_eq_none] at hpost
    cases hpost

/-- A handler begins its work on what a consumer has just received, and a keeper starts for
it. Nobody else has the turn. -/
theorem handled_cases (t : Turn p worker before p' after) (hbefore : ∀ a ∈ before, a.InShape)
    {a : Agent} (ha : a ∈ after) {x : Delivery × Nat} (hx : a.handled? q = some x) :
    after = [a] ∧ ∃ c call canceled callMove p₁ rest, .consumer c ∈ before ∧
      c.post.requests.store = q ∧ call.handle.store = q ∧
      p.stepCall canceled call callMove = some (p₁, .ended (.ok (.batch (x.1 :: rest)))) ∧
      x.2 = p₁.numbered ∧
      p' = ((p₁.onBoard c.post.board .begin).startKeeper c.post.requests x.1
        c.post.period).1 := by
  rcases t.after_cases ha with ⟨canceled, c, c', move, rfl, hafter, rfl, st⟩ |
    ⟨post, -, rfl | rfl⟩ | hcalls
  · obtain ⟨h, hdoing, hstore⟩ := Consumer.handled?_eq_some.mp hx
    rcases st.working_cases hdoing with ⟨_, -, hne⟩ |
      ⟨rfl, -, call, callMove, p₁, rest, hreceiving, made, hk, hplant⟩
    · exact absurd rfl hne
    · have hcall := (hbefore _ List.mem_cons_self).handle_of_receiving hreceiving
      exact ⟨hafter, c, call, _, callMove, p₁, rest, List.mem_cons_self, hstore,
        hcall ▸ hstore, made, hk, hplant⟩
  · cases hx
  · cases hx
  · rw [hcalls.handled?_eq_none] at hx
    cases hx

/-- A keeper after a turn was there before it, or it has just started. -/
theorem keeper_cases (t : Turn p worker before p' after) {a : Agent} (ha : a ∈ after) {k : Nat}
    (hk : a.keeper? = some k) :
    (∃ b ∈ before, b.keeper? = some k) ∨ (p.numbered ≤ k ∧ k < p'.numbered) := by
  rcases t.after_cases ha with ⟨canceled, c, c', move, rfl, -, rfl, st⟩ |
    ⟨post, -, rfl | rfl⟩ | hcalls
  · have hk' : c'.keeper? = some k := hk
    unfold Consumer.keeper? at hk'
    split at hk'
    · rename_i h d k' job hdoing
      cases hk'
      rcases st.working_cases hdoing with ⟨job', hdoing', -⟩ |
        ⟨-, -, call, callMove, p₁, rest, -, made, rfl, rfl⟩
      · refine Or.inl ⟨_, List.mem_cons_self, ?_⟩
        show c.keeper? = _
        rw [Consumer.keeper?, hdoing']
      · obtain ⟨s, s', -, -, rfl⟩ := Plant.stepCall_cases made
        exact Or.inr ⟨Nat.le_refl _, Nat.lt_succ_self _⟩
    · cases hk'
  · cases hk
  · cases hk
  · rw [hcalls.keeper?_eq_none] at hk
    cases hk

/-- A delivery after a turn was there before it, or it has just been handed out. -/
theorem delivery_cases (t : Turn p worker before p' after) (hbefore : ∀ a ∈ before, a.InShape)
    {s s' : Store} (hs : p.stores[q]? = some s) (hs' : p'.stores[q]? = some s')
    {a : Agent} (ha : a ∈ after) {d : Delivery} (hd : a.delivery? q = some d) :
    (∃ b ∈ before, b.delivery? q = some d) ∨
      (s.receipts ≤ d.receipt ∧ d.receipt < s'.receipts) := by
  -- What a call brings home has a new receipt.
  have hbatch : ∀ {canceled : Bool} {call : Call} {move : Queue.CallMove} {p₁ : Plant}
      {ds : List Delivery}, p.stepCall canceled call move = some (p₁, .ended (.ok (.batch ds))) →
      call.handle.store = q → p'.stores = p₁.stores → d ∈ ds →
      s.receipts ≤ d.receipt ∧ d.receipt < s'.receipts := by
    intro canceled call move p₁ ds made hstore hstores hmem
    obtain ⟨s₀, s₁, hs₀, rfl, st⟩ := Plant.stepCall_succeeded made
    subst hstore
    obtain rfl : s₀ = s := Option.some.inj (hs₀.symm.trans hs)
    rw [hstores, Plant.stores_withStore hs₀] at hs'
    cases hs'
    obtain ⟨hge, hlt, -⟩ := st.batch hmem
    exact ⟨hge, hlt⟩
  have hsame : ∀ {canceled : Bool} {call call' : Call} {move : Queue.CallMove} {p₁ : Plant},
      p.stepCall canceled call move = some (p₁, .going call') →
      call'.ending? q = call.ending? q := by
    intro canceled call call' move p₁ made
    unfold Queue.Call.ending?
    rw [(Plant.stepCall_same made).1, (Plant.stepCall_same made).2]
  cases t with
  | @worked canceled c c' move p' st =>
    obtain rfl := List.mem_singleton.mp ha
    obtain ⟨h, k, job, hdoing, hstore⟩ := Consumer.delivery?_eq_some.mp hd
    rcases st.working_cases hdoing with ⟨job', hdoing', -⟩ |
      ⟨rfl, -, call, callMove, p₁, rest, hreceiving, made, rfl, rfl⟩
    · refine Or.inl ⟨_, List.mem_cons_self, ?_⟩
      exact Consumer.delivery?_eq_some.mpr ⟨h, k, job', hdoing', hstore⟩
    · have hcall := (hbefore _ List.mem_cons_self).handle_of_receiving hreceiving
      exact Or.inr (hbatch made (hcall ▸ hstore) rfl List.mem_cons_self)
  | hired post =>
    rcases List.mem_cons.mp ha with rfl | ha
    · cases hd
    · obtain rfl := List.mem_singleton.mp ha
      cases hd
  | called made =>
    obtain rfl := List.mem_singleton.mp ha
    exact Or.inl ⟨_, List.mem_cons_self, (hsame made).symm.trans hd⟩
  | awaited made =>
    obtain rfl := List.mem_singleton.mp ha
    exact Or.inl ⟨_, List.mem_cons_self, (hsame made).symm.trans hd⟩
  | @received canceled call move p₁ reply made =>
    obtain ⟨deletion, hdeletion, rfl⟩ := List.mem_map.mp ha
    cases reply with
    | done => cases hdeletion
    | batch ds =>
      obtain ⟨d', hd', rfl⟩ := List.mem_map.mp hdeletion
      have hending : Queue.Call.ending? q (.start call.handle (.delete d')) = some d := hd
      unfold Queue.Call.ending? at hending
      split at hending
      · rename_i hstore
        cases hending
        exact Or.inr (hbatch made hstore rfl hd')
      · cases hending
  | resumed call =>
    refine Or.inl ⟨_, List.mem_cons_self, ?_⟩
    rcases List.mem_cons.mp ha with rfl | ha
    · exact hd
    · obtain rfl := List.mem_singleton.mp ha
      exact hd
  | _ => cases ha

end Agent.Turn

end

end Leasework
