import Leasework.Proofs.World.Agents

/-!
# `Leasework.Proofs.World.Runs`: the runs of a world

A *run* begins with stores and no parties, and goes from world to world by events. Every event
is on record with the world before it and the world after it, the newest one first. What may
join and what may happen is a parameter, so that every statement can say what it asks of the
surroundings.

`World.Step` says what an event may come to, and `World.step_cases` that there is nothing else.
The rest of the theory stands on five facts about events:

* `World.step_upkeep`: when nobody has the turn, a store is kept up at most;
* `World.step_touched`: an event touches a store at most once, and ends a delivery there only
  for an agent that asks for it;
* `World.step_change`: an event exchanges some agents for others, and the rest stay;
* `World.step_keeper?`: a keeper stays as it is, unless the event is about it;
* `World.step_keepersOrderly`: the keepers stay in order.
-/

set_option autoImplicit false

namespace Leasework

open Queue (Call Deed Store)
open Work (Consumer ConsumerMove)

/-! ### What a turn does to the plant -/

namespace Agent
variable {p p' : Plant} {worker : Option (Consumer × ConsumerMove)} {before after : List Agent}

/-- Dropping an agent is an act of its own: its keeper is left, if it has one. -/
theorem abandon_act (p : Plant) (a : Agent) : p.Act none a.keeper? (a.abandon p) := by
  cases a with
  | consumer c =>
    show p.Act none c.keeper? (c.abandon p)
    unfold Consumer.abandon Consumer.keeper?
    cases c.activity with
    | working => exact .left _ rfl
    | _ => exact .noted _
  | collector k => exact .left _ rfl
  | _ => exact .noted _

/-- Dropping an agent touches no store. -/
theorem stores_abandon (p : Plant) (a : Agent) : (a.abandon p).stores = p.stores := by
  cases a with
  | consumer c =>
    show (c.abandon p).stores = p.stores
    unfold Consumer.abandon
    split <;> rfl
  | _ => rfl

/-- The turn of an agent is an act of its own; otherwise agents are dropped, or nothing
happens to the plant. -/
theorem Turn.plant_cases (t : Turn p worker before p' after) :
    p' = p ∨ (∃ a ∈ before, p.Act a.call? a.keeper? p') ∨ p' = before.foldl abandon p := by
  have hcalled : ∀ {a : Agent} {canceled : Bool} {call : Call} {move : Queue.CallMove}
      {p' : Plant} {progress : Queue.Progress}, a.call? = some call →
      p.stepCall canceled call move = some (p', progress) →
      ∃ b ∈ [a], p.Act b.call? b.keeper? p' :=
    fun hcall made => ⟨_, List.mem_singleton.mpr rfl, .called _ hcall made⟩
  cases t with
  | idle => exact Or.inl rfl
  | worked st => exact Or.inr (Or.inl ⟨_, List.mem_singleton.mpr rfl, st.act⟩)
  | retired st => exact Or.inr (Or.inl ⟨_, List.mem_singleton.mpr rfl, st.act⟩)
  | hired => exact Or.inl rfl
  | dropped => exact Or.inr (Or.inr rfl)
  | called made => exact Or.inr (Or.inl (hcalled rfl made))
  | answered made => exact Or.inr (Or.inl (hcalled rfl made))
  | awaited made => exact Or.inr (Or.inl (hcalled rfl made))
  | received made => exact Or.inr (Or.inl (hcalled rfl made))
  | missed made => exact Or.inr (Or.inl (hcalled rfl made))
  | resumed => exact Or.inl rfl
  | collected made =>
    exact Or.inr (Or.inl ⟨_, List.mem_singleton.mpr rfl, .collected rfl made⟩)

/-- What every act of an agent that has the turn keeps, the turn keeps. -/
theorem Turn.keeps {P : Plant → Prop} (t : Turn p worker before p' after) (hp : P p)
    (hact : ∀ a ∈ before, ∀ {call p p'}, Plant.Act call a.keeper? p p' → P p → P p') : P p' := by
  rcases t.plant_cases with rfl | ⟨a, ha, act⟩ | rfl
  · exact hp
  · exact hact a ha act hp
  · -- Agents are dropped one after the other, and each drop is an act.
    exact List.foldlRecOn before abandon hp fun p hp a ha => hact a ha (abandon_act p a) hp

/-- A turn takes no time. -/
theorem Turn.now (t : Turn p worker before p' after) : p'.now = p.now :=
  t.keeps (P := fun q => q.now = p.now) rfl fun _ _ _ _ _ act hnow => act.now.trans hnow

/-- A turn touches a store only through the call of an agent that has the turn. -/
theorem Turn.touched (t : Turn p worker before p' after) (q : Nat) :
    Plant.Touched q (fun deed => ∃ a ∈ before, ∃ c, a.call? = some c ∧ c.handle.store = q ∧
      deed = .attempt c.request) p p' := by
  rcases t.plant_cases with rfl | ⟨a, ha, act⟩ | rfl
  · exact .of_stores rfl
  · exact (act.touched q).mono fun deed ⟨c, hc⟩ => ⟨a, ha, c, hc⟩
  · refine .of_stores ?_
    refine List.foldlRecOn (motive := fun q => q.stores = p.stores) before abandon rfl ?_
    exact fun q hq a _ => (stores_abandon q a).trans hq

/-- A turn leaves the keepers of the agents that do not have the turn as they were. -/
theorem Turn.keeper?_other (t : Turn p worker before p' after) {k : Nat} {e : KeeperEntry}
    (he : p.keeper? k = some e) (hleft : e.isLeft = false)
    (hne : ∀ a ∈ before, a.keeper? ≠ some k) : p'.keeper? k = some e := by
  refine t.keeps (P := fun q => q.keeper? k = some e) he fun a ha _ _ _ act hfound => ?_
  exact act.keeper?_other hfound hleft (hne a ha)

/-- A turn keeps the keepers in order. -/
theorem Turn.keepersOrderly (t : Turn p worker before p' after) (o : p.KeepersOrderly) :
    p'.KeepersOrderly :=
  t.keeps (P := Plant.KeepersOrderly) o fun _ _ _ _ _ act o => act.keepersOrderly o

/-- A turn takes no number of a keeper back. -/
theorem Turn.numbered_le (t : Turn p worker before p' after) : p.numbered ≤ p'.numbered :=
  t.keeps (P := fun q => p.numbered ≤ q.numbered) (Nat.le_refl _)
    fun _ _ _ _ _ act hle => Nat.le_trans hle act.numbered_le

end Agent

/-! ### What may happen -/

/-- An event that is not about the keeper of a number. -/
def Event.Spares (k : Nat) : Event → Prop
  | .keeper n => n ≠ k
  | .stop n => n ≠ k
  | .leave n => n ≠ k
  | _ => True

namespace World
variable {w w' : World} {event : Event}

/-- What an event may come to. -/
inductive Step (w : World) : Event → World → Prop
  /-- Time passes. -/
  | advanced {millis : Nat} (forward : w.plant.now ≤ millis * nanosPerMilli) :
      Step w (.advance millis)
        { w with plant := { w.plant with now := millis * nanosPerMilli } }
  /-- Somebody is canceled, and goes on with what he does. -/
  | canceled {i : Nat} {parties : List Party}
      (same : (⟨w.plant, parties⟩ : World).agents.Perm w.agents) :
      Step w (.cancel i) ⟨w.plant, parties⟩
  /-- Faults are injected. -/
  | injected {store : Nat} {kind : Queue.FaultKind} {count : Nat} :
      Step w (.inject store kind count)
        { w with plant := w.plant.onStore store (·.inject kind count) }
  /-- Somebody looks at a store. -/
  | observed {store : Nat} :
      Step w (.observe store)
        { w with plant := w.plant.onStore store (·.reclaim w.plant.now) }
  /-- A keeper makes a step. -/
  | kept {k : Nat} {p : Plant} (made : w.plant.stepKeeper k = some p) :
      Step w (.keeper k) { w with plant := p }
  /-- A keeper starts. -/
  | started {handle : Queue.Handle} {d : Queue.Delivery} {period : Nat} :
      Step w (.keep handle d period)
        { w with plant := (w.plant.startKeeper handle d period).1 }
  /-- A keeper is told to stop. -/
  | stopped {k : Nat} : Step w (.stop k) { w with plant := w.plant.stopKeeper k }
  /-- A keeper is left. -/
  | left {k : Nat} : Step w (.leave k) { w with plant := w.plant.leaveKeeper k }
  /-- A board is put up. -/
  | boarded : Step w .board { w with plant := w.plant.addBoard.1 }
  /-- A party joins. -/
  | joined {party : Party} : Step w (.join party) { w with parties := w.parties ++ [party] }
  /-- A consumer joins that has been given a message. -/
  | assigned {post : Work.Post} {handle : Queue.Handle} {d : Queue.Delivery} :
      Step w (.assign post handle d)
        ⟨(Consumer.given w.plant post handle d).1,
          w.parties ++ [⟨false, .consumer (Consumer.given w.plant post handle d).2⟩]⟩
  /-- Agents of a party take their turn. -/
  | moved {i : Nat} {move : PartyMove} {w' : World}
      (turn : Agent.TurnIn w.plant (w.worker? (.move i move)) w.agents w'.plant w'.agents) :
      Step w (.move i move) w'
  /-- The agents of a party are dropped. -/
  | dropped {i : Nat} {w' : World}
      (turn : Agent.TurnIn w.plant none w.agents w'.plant w'.agents) : Step w (.drop i) w'

/-- Whatever happens, it is one of these. -/
theorem step_cases (h : w.step event = some w') : Step w event w' := by
  cases event with
  | advance millis =>
    simp only [step] at h
    split at h
    · rename_i hle
      cases h
      exact .advanced hle
    · cases h
  | cancel i =>
    simp only [step] at h
    split at h
    · rename_i hlt
      cases h
      exact .canceled (agents_cancel hlt)
    · cases h
  | inject store kind count =>
    cases h
    exact .injected
  | observe store =>
    cases h
    exact .observed
  | keeper k =>
    obtain ⟨p, made, heq⟩ := Option.map_eq_some_iff.mp h
    cases heq
    exact .kept made
  | keep handle d period =>
    cases h
    exact .started
  | stop k =>
    cases h
    exact .stopped
  | leave k =>
    cases h
    exact .left
  | board =>
    cases h
    exact .boarded
  | join party =>
    cases h
    exact .joined
  | assign post handle d =>
    cases h
    exact .assigned
  | move i move => exact .moved (move_turn h)
  | drop i => exact .dropped (drop_turn h)

/-! ### What an event does to the plant -/

/-- A deed that an event does to a store: a delivery ends only with the call of an agent. -/
def DoneBy (w : World) (q : Nat) (deed : Deed) : Prop :=
  deed.closes? = none ∨
    ∃ a ∈ w.agents, ∃ c, a.call? = some c ∧ c.handle.store = q ∧ deed = .attempt c.request

/-- What is done to a store when nobody has the turn: somebody looks, faults are injected, or a
keeper renews a lease. -/
def IsUpkeep : Deed → Prop
  | .attempt request => ∃ d, request = .renew d
  | _ => True

/-- When nobody has the turn, a store is kept up at most. -/
theorem step_upkeep (o : w.plant.KeepersOrderly) (h : w.step event = some w')
    (no_move : ∀ i move, event ≠ .move i move) (no_drop : ∀ i, event ≠ .drop i) (q : Nat) :
    Plant.Touched q IsUpkeep w.plant w'.plant := by
  cases step_cases h with
  | @injected store kind count =>
    have hdone : ∀ s : Store, s.perform w.plant.now (.inject kind count)
        = (s.inject kind count, none) := fun _ => rfl
    exact .onStore hdone fun _ => trivial
  | observed =>
    have hdone : ∀ s : Store, s.perform w.plant.now .observe
        = (s.reclaim w.plant.now, none) := fun _ => rfl
    exact .onStore hdone fun _ => trivial
  | kept made =>
    refine (o.touched_stepKeeper made q).mono ?_
    rintro deed ⟨d, rfl⟩
    exact ⟨d, rfl⟩
  | moved => exact absurd rfl (no_move _ _)
  | dropped => exact absurd rfl (no_drop _)
  | _ => exact .of_stores rfl

/-- An event touches a store at most once, and ends a delivery there only for an agent. -/
theorem step_touched (o : w.plant.KeepersOrderly) (h : w.step event = some w') (q : Nat) :
    Plant.Touched q (w.DoneBy q) w.plant w'.plant := by
  have hturn : ∀ {worker}, Agent.TurnIn w.plant worker w.agents w'.plant w'.agents →
      Plant.Touched q (w.DoneBy q) w.plant w'.plant := by
    rintro worker ⟨before, after, rest, hbefore, -, turn⟩
    refine (turn.touched q).mono fun deed hdeed => Or.inr ?_
    obtain ⟨a, ha, hdeed⟩ := hdeed
    exact ⟨a, hbefore.mem_iff.mpr (List.mem_append_left _ ha), hdeed⟩
  cases step_cases h with
  | moved turn => exact hturn turn
  | dropped turn => exact hturn turn
  | _ =>
    refine (step_upkeep o h nofun nofun q).mono fun deed hdeed => Or.inl ?_
    cases deed with
    | attempt request =>
      obtain ⟨d, rfl⟩ := hdeed
      rfl
    | _ => rfl

/-- An event takes no time, unless the clock goes on. -/
theorem step_now (h : w.step event = some w') (hclock : ∀ millis, event ≠ .advance millis) :
    w'.plant.now = w.plant.now := by
  have hturn : ∀ {worker}, Agent.TurnIn w.plant worker w.agents w'.plant w'.agents →
      w'.plant.now = w.plant.now := by
    rintro worker ⟨before, after, rest, -, -, turn⟩
    exact turn.now
  cases step_cases h with
  | advanced => exact absurd rfl (hclock _)
  | kept made => exact (Plant.now_numbered_stepKeeper made).1
  | moved turn => exact hturn turn
  | dropped turn => exact hturn turn
  | _ => rfl

/-- Time only goes forward. -/
theorem now_le_step (h : w.step event = some w') : w.plant.now ≤ w'.plant.now := by
  by_cases hclock : ∀ millis, event ≠ .advance millis
  · exact Nat.le_of_eq (step_now h hclock).symm
  · obtain ⟨millis, rfl⟩ := not_forall_not.mp hclock
    cases step_cases h with
    | advanced forward => exact forward

/-- An event takes no number of a keeper back. -/
theorem step_numbered_le (h : w.step event = some w') :
    w.plant.numbered ≤ w'.plant.numbered := by
  have hturn : ∀ {worker}, Agent.TurnIn w.plant worker w.agents w'.plant w'.agents →
      w.plant.numbered ≤ w'.plant.numbered := by
    rintro worker ⟨before, after, rest, -, -, turn⟩
    exact turn.numbered_le
  cases step_cases h with
  | kept made => exact Nat.le_of_eq (Plant.now_numbered_stepKeeper made).2.symm
  | started => exact Nat.le_succ _
  | assigned => exact Nat.le_succ _
  | moved turn => exact hturn turn
  | dropped turn => exact hturn turn
  | _ => exact Nat.le_refl _

/-- Every event keeps the keepers in order. -/
theorem step_keepersOrderly (o : w.plant.KeepersOrderly) (h : w.step event = some w') :
    w'.plant.KeepersOrderly := by
  have hturn : ∀ {worker}, Agent.TurnIn w.plant worker w.agents w'.plant w'.agents →
      w'.plant.KeepersOrderly := by
    rintro worker ⟨before, after, rest, -, -, turn⟩
    exact turn.keepersOrderly o
  cases step_cases h with
  | canceled => exact o
  | kept made => exact o.stepKeeper made
  | @started handle d period => exact o.startKeeper handle d period
  | stopped => exact o.stopKeeper
  | left => exact o.leaveKeeper
  | joined => exact o
  | @assigned post handle d =>
    have o' : (w.plant.onBoard post.board .begin).KeepersOrderly := o.of_eq rfl rfl
    exact o'.startKeeper handle d post.period
  | moved turn => exact hturn turn
  | dropped turn => exact hturn turn
  | _ => exact o.of_eq rfl rfl

/-! ### What an event does to the agents -/

/-- How an event exchanges some agents for others. -/
inductive Change (w w' : World) : Event → List Agent → List Agent → Prop
  /-- Agents take their turn. -/
  | turned {event : Event} {before after : List Agent}
      (turn : Agent.Turn w.plant (w.worker? event) before w'.plant after) :
      Change w w' event before after
  /-- A party joins with its agents. -/
  | joined (party : Party) : Change w w' (.join party) [] party.agents
  /-- A consumer joins that has been given a message. -/
  | assigned (post : Work.Post) (handle : Queue.Handle) (d : Queue.Delivery) :
      Change w w' (.assign post handle d) []
        [.consumer (Consumer.given w.plant post handle d).2]
  /-- Nobody has the turn, and everybody stays. -/
  | stayed {event : Event} (no_move : ∀ i move, event ≠ .move i move)
      (no_drop : ∀ i, event ≠ .drop i) : Change w w' event [] []

/-- Every event exchanges some agents for others, and the rest stay as they are. -/
theorem step_change (h : w.step event = some w') :
    ∃ before after rest, w.agents.Perm (before ++ rest) ∧ w'.agents.Perm (after ++ rest) ∧
      Change w w' event before after := by
  have hturn : Agent.TurnIn w.plant (w.worker? event) w.agents w'.plant w'.agents →
      ∃ before after rest, w.agents.Perm (before ++ rest) ∧ w'.agents.Perm (after ++ rest) ∧
        Change w w' event before after := by
    rintro ⟨before, after, rest, hbefore, hafter, turn⟩
    exact ⟨before, after, rest, hbefore, hafter, .turned turn⟩
  cases step_cases h with
  | canceled same => exact ⟨[], [], _, .refl _, same, .stayed (by simp) (by simp)⟩
  | @joined party =>
    refine ⟨[], party.agents, w.agents, .refl _, ?_, .joined party⟩
    rw [agents_append]
    exact List.perm_append_comm
  | @assigned post handle d =>
    refine ⟨[], _, w.agents, .refl _, ?_, .assigned post handle d⟩
    rw [agents_append]
    exact List.perm_append_comm
  | moved turn => exact hturn turn
  | dropped turn => exact hturn turn
  | _ => exact ⟨[], [], _, .refl _, .refl _, .stayed (by simp) (by simp)⟩

/-- Where an agent comes from: it was there before, it joins with a party, it has been given
a message, or a turn has produced it. -/
theorem agent_cases (h : w.step event = some w') {a : Agent} (ha : a ∈ w'.agents) :
    a ∈ w.agents ∨ (∃ party, event = .join party ∧ a ∈ party.agents) ∨
      (∃ post handle d, event = .assign post handle d ∧
        a = .consumer (Consumer.given w.plant post handle d).2) ∨
      ∃ before after, (∀ b ∈ before, b ∈ w.agents) ∧ a ∈ after ∧
        Agent.Turn w.plant (w.worker? event) before w'.plant after := by
  obtain ⟨before, after, rest, hbefore, hafter, change⟩ := step_change h
  rcases List.mem_append.mp (hafter.mem_iff.mp ha) with ha | ha
  · cases change with
    | turned turn =>
      refine Or.inr (Or.inr (Or.inr ⟨before, after, fun b hb => ?_, ha, turn⟩))
      exact hbefore.mem_iff.mpr (List.mem_append_left _ hb)
    | joined party => exact Or.inr (Or.inl ⟨party, rfl, ha⟩)
    | assigned post handle d =>
      exact Or.inr (Or.inr (Or.inl ⟨post, handle, d, rfl, List.mem_singleton.mp ha⟩))
    | stayed => cases ha
  · exact Or.inl (hbefore.mem_iff.mpr (List.mem_append_right _ ha))

/-- A keeper stays as it is, unless the event or an agent that has the turn is about it. -/
theorem step_keeper? (h : w.step event = some w') {before after : List Agent}
    (change : Change w w' event before after) {k : Nat} {e : KeeperEntry}
    (he : w.plant.keeper? k = some e) (hleft : e.isLeft = false) (hspares : event.Spares k)
    (hne : ∀ a ∈ before, a.keeper? ≠ some k) : w'.plant.keeper? k = some e := by
  -- A turn is told by the change, because only that says who had it.
  have hturn : (∃ i move, event = .move i move) ∨ (∃ i, event = .drop i) →
      w'.plant.keeper? k = some e := by
    intro hevent
    cases change with
    | turned turn => exact turn.keeper?_other he hleft hne
    | stayed no_move no_drop =>
      rcases hevent with ⟨i, move, rfl⟩ | ⟨i, rfl⟩
      · exact absurd rfl (no_move i move)
      · exact absurd rfl (no_drop i)
    | _ => simp at hevent
  cases step_cases h with
  | kept made => exact Plant.keeper?_stepKeeper made he hleft hspares
  | started => exact Plant.keeper?_startKeeper he
  | stopped => exact Plant.keeper?_stopKeeper he hspares
  | left => exact Plant.keeper?_leaveKeeper he hleft hspares
  | @assigned post handle d =>
    exact Plant.keeper?_startKeeper (p := w.plant.onBoard post.board .begin) he
  | moved => exact hturn (Or.inl ⟨_, _, rfl⟩)
  | dropped => exact hturn (Or.inr ⟨_, rfl⟩)
  | _ => exact he

end World

/-! ### Runs -/

/-- An event on record, with the world before it and the world after it. -/
structure Occurrence where
  /-- The world before. -/
  before : World
  /-- What happened. -/
  event : Event
  /-- The world after. -/
  after : World

/-- The runs that begin with stores and no parties, and in which only what may happen does.
The newest event stands first. -/
inductive Run (stores : List Store) (may : World → Event → Prop) :
    List Occurrence → World → Prop
  /-- Nothing has happened. -/
  | start : Run stores may [] ⟨.start stores, []⟩
  /-- One more event. -/
  | step {past : List Occurrence} {w w' : World} (event : Event) (before : Run stores may past w)
      (allowed : may w event) (happens : w.step event = some w') :
      Run stores may (⟨w, event, w'⟩ :: past) w'

/-- Makes events happen, the last one in the list first, and puts them on record. -/
def World.play (stores : List Store) : List Event → Option (List Occurrence × World)
  | [] => some ([], ⟨.start stores, []⟩)
  | event :: earlier =>
    match World.play stores earlier with
    | some (past, w) => (w.step event).map fun w' => (⟨w, event, w'⟩ :: past, w')
    | none => none

/-- What is played is a run, if every event may happen where it does. -/
theorem Run.play {stores : List Store} {may : World → Event → Prop} {events : List Event}
    {past : List Occurrence} {w : World} (h : (past, w) ∈ World.play stores events)
    (allowed : ∀ o ∈ past, may o.before o.event) : Run stores may past w := by
  induction events generalizing past w with
  | nil =>
    cases h
    exact .start
  | cons event earlier ih =>
    unfold World.play at h
    split at h
    · rename_i past₀ w₀ hplay
      obtain ⟨w', happens, heq⟩ := Option.map_eq_some_iff.mp h
      cases heq
      rw [List.forall_mem_cons] at allowed
      exact .step event (ih hplay allowed.2) allowed.1 happens
    · cases h

/-- What is played is on record, event by event. -/
theorem World.map_event_play {stores : List Store} {events : List Event}
    {past : List Occurrence} {w : World} (h : (past, w) ∈ World.play stores events) :
    past.map Occurrence.event = events := by
  induction events generalizing past w with
  | nil =>
    cases h
    rfl
  | cons event earlier ih =>
    unfold World.play at h
    split at h
    · rename_i past₀ w₀ hplay
      obtain ⟨w', -, heq⟩ := Option.map_eq_some_iff.mp h
      cases heq
      rw [List.map_cons, ih hplay]
    · cases h

/-- The keepers are in order in every run. -/
theorem Run.keepersOrderly {stores : List Store} {may : World → Event → Prop}
    {past : List Occurrence} {w : World} (run : Run stores may past w) :
    w.plant.KeepersOrderly := by
  induction run with
  | start => exact ⟨List.nodup_nil, List.forall_mem_nil _, List.forall_mem_nil _⟩
  | step _ _ _ happens ih => exact World.step_keepersOrderly ih happens

section
variable {stores : List Store} {may : World → Event → Prop} {past later earlier : List Occurrence}
  {w : World} {o : Occurrence}

/-- What is on record has happened in a run. -/
theorem Run.exists_before (run : Run stores may past w) (hpast : past = later ++ o :: earlier) :
    Run stores may earlier o.before ∧ may o.before o.event ∧
      o.before.step o.event = some o.after := by
  induction run generalizing later with
  | start => simp at hpast
  | step event before allowed happens ih =>
    cases later with
    | nil =>
      obtain ⟨rfl, rfl⟩ := List.cons.inj hpast
      exact ⟨before, allowed, happens⟩
    | cons last later => exact ih (List.cons.inj hpast).2

/-- A clock that is on record does not show more than the clock now. -/
theorem Run.now_le (run : Run stores may past w) :
    ∀ o ∈ past, o.before.plant.now ≤ w.plant.now := by
  induction run with
  | start => exact List.forall_mem_nil _
  | step event _ _ happens ih =>
    have hle := World.now_le_step happens
    refine List.forall_mem_cons.mpr ⟨hle, fun o ho => ?_⟩
    exact Nat.le_trans (ih o ho) hle

/-- The clock shows whole milliseconds. -/
theorem Run.exists_millis (run : Run stores may past w) :
    ∃ m, w.plant.now = m * nanosPerMilli := by
  induction run with
  | start => exact ⟨0, (Nat.zero_mul _).symm⟩
  | step event _ _ happens ih =>
    by_cases hclock : ∀ millis, event ≠ .advance millis
    · rw [World.step_now happens hclock]
      exact ih
    · obtain ⟨millis, rfl⟩ := not_forall_not.mp hclock
      cases World.step_cases happens with
      | advanced => exact ⟨millis, rfl⟩

/-- What holds after an event on record, and is kept by the later ones, holds at the end. It may be
about what has happened since. -/
theorem Run.since {P : List Occurrence → World → Prop} (run : Run stores may past w)
    (hpast : past = later ++ o :: earlier) (after : P [] o.after)
    (kept : ∀ {since v event v'}, v.plant.KeepersOrderly → v.step event = some v' →
      P since v → P (⟨v, event, v'⟩ :: since) v') : P later w := by
  induction run generalizing later with
  | start => simp at hpast
  | step event before _ happens ih =>
    cases later with
    | nil =>
      obtain ⟨rfl, rfl⟩ := List.cons.inj hpast
      exact after
    | cons last later =>
      obtain ⟨rfl, htail⟩ := List.cons.inj hpast
      exact kept before.keepersOrderly happens (ih htail)

end

end Leasework
