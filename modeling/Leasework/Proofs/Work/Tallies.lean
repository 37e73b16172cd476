import Leasework.Proofs.Queue.Counts
import Leasework.Proofs.Work.Record

/-!
# `Leasework.Proofs.Work.Tallies`: what the stores count and what is on record

A store counts the messages that it is sent, that are given back and that are deleted, whoever
does it. If for one of these nobody but consumers does it, then the store counts exactly the
commands that iterations have carried out there: `Run.reading` compares the meter with the record.
So a counter of a store can be compared with anything else that is on record about iterations.
-/

set_option autoImplicit false

namespace Leasework

open Queue (Call Deed Meter Reply Store)
open Work (Command Consumer ConsumerMove Iteration)

/-! ### Meters on the plant -/

/-- What is asked for does not turn a meter. -/
def Queue.Deed.Leaves (m : Meter) (deed : Deed) : Prop :=
  ∀ request, deed = .attempt request → request.meter? ≠ some m

namespace Plant
variable {p p' : Plant} {i : Nat} {m : Meter}

/-- What a meter of a store shows. -/
def reading (p : Plant) (i : Nat) (m : Meter) : Nat :=
  (p.stores[i]?.map fun s => s.tally.read m).getD 0

theorem reading_of_store {s : Store} (hs : p.stores[i]? = some s) :
    p.reading i m = s.tally.read m := by
  rw [reading, hs]
  rfl

theorem reading_of_stores (h : p'.stores = p.stores) : p'.reading i m = p.reading i m := by
  rw [reading, h]
  rfl

/-- A call turns a meter of its store with the step in which it succeeds. -/
theorem reading_stepCall {canceled : Bool} {call : Call} {move : Queue.CallMove}
    {progress : Queue.Progress} (made : p.stepCall canceled call move = some (p', progress)) :
    p'.reading i m = p.reading i m +
      if progress.isDone ∧ call.handle.store = i ∧ call.request.meter? = some m then 1 else 0 := by
  obtain ⟨s, s', hs, st, rfl⟩ := stepCall_cases made
  by_cases hi : call.handle.store = i
  · subst hi
    rw [reading_of_store (stores_withStore hs s'), reading_of_store hs, st.read m]
    simp only [true_and]
  · have hsame : (p.withStore call.handle.store s').reading i m = p.reading i m := by
      unfold reading withStore
      rw [List.getElem?_set_ne hi]
    rw [hsame, if_neg fun h => hi h.2.1]
    rfl

theorem Touched.reading (t : Touched i (Deed.Leaves m) p p') {s : Store}
    (hs : p.stores[i]? = some s) : p'.reading i m = p.reading i m := by
  obtain ⟨s', hs', hcase⟩ := t s hs
  rw [reading_of_store hs', reading_of_store hs]
  rcases hcase with rfl | ⟨deed, outcome, aside, st⟩
  · rfl
  · exact st.read_aside m aside

end Plant

/-! ### Commands that are carried out -/

/-- The meter that a command of the work turns. -/
def Work.Command.meter : Command → Meter
  | .send _ => .sent
  | .delete => .deleted
  | .giveBack => .returned

/-- The store whose meter is turned by the commands of an iteration. -/
def Work.Iteration.storeOf (x : Iteration) : Meter → Nat
  | .sent => x.post.responses.store
  | _ => x.handle.store

/-- The meter that an iteration turns when it has settled a command, and its store. -/
def Work.Iteration.turned? (x : Iteration) :
    Command × Except Queue.Failure Reply → Option (Nat × Meter)
  | (command, .ok _) => some (x.storeOf command.meter, command.meter)
  | _ => none

/-- The meter that an iteration turns with an event, and its store. -/
def Occurrence.turned? (o : Occurrence) : Option (Nat × Meter) :=
  o.settled?.bind fun (x, settled) => x.turned? settled

namespace Occurrence
variable {o : Occurrence} {i : Nat}

theorem turned?_sent :
    o.turned? = some (i, .sent) ↔ ∃ x, o.sent? = some x ∧ x.post.responses.store = i := by
  unfold turned? sent?
  rcases o.settled? with _ | ⟨y, _ | _ | _, _ | _⟩ <;>
    simp [Iteration.turned?, Command.meter, Iteration.storeOf]

theorem turned?_deleted :
    o.turned? = some (i, .deleted) ↔ ∃ x, o.deleted? = some x ∧ x.handle.store = i := by
  unfold turned? deleted?
  rcases o.settled? with _ | ⟨y, _ | _ | _, _ | _⟩ <;>
    simp [Iteration.turned?, Command.meter, Iteration.storeOf]

theorem turned?_returned :
    o.turned? = some (i, .returned) ↔ ∃ x, o.returned? = some x ∧ x.handle.store = i := by
  unfold turned? returned?
  rcases o.settled? with _ | ⟨y, _ | _ | _, _ | _⟩ <;>
    simp [Iteration.turned?, Command.meter, Iteration.storeOf]

end Occurrence

theorem Work.Iteration.callOf_eq (x : Iteration) (command : Command) :
    (Consumer.callOf x.post x.handle x.delivery command).handle.store = x.storeOf command.meter ∧
      (Consumer.callOf x.post x.handle x.delivery command).request.meter? = some command.meter := by
  cases command <;> exact ⟨rfl, rfl⟩

/-- A step of a consumer turns the meter of the command that it carries out, and no other. -/
theorem Work.Consumer.Step.reading {canceled : Bool} {p p' : Plant} {c c' : Consumer}
    {move : ConsumerMove} (st : c.Step canceled p move p' c') (hs : c.InShape) (i : Nat)
    (m : Meter) :
    p'.reading i m = p.reading i m +
      if (c.stage?.bind fun stage => (c.settled? p move).bind stage.1.turned?) = some (i, m)
      then 1 else 0 := by
  cases move with
  | call callMove =>
    obtain ⟨call, asked, p₁, progress, hcall, hasked, made, hstores⟩ := st.called
    rw [Plant.reading_of_stores hstores, Plant.reading_stepCall made]
    congr 2
    cases doing : c.activity with
    | receiving call₀ =>
      -- Who receives turns no meter, and carries out no command.
      have herrand := hs.errand hcall (by rw [Consumer.duty?, doing])
      rw [herrand.2, Consumer.stage?, doing]
      simp [Consumer.receive, Call.start, Queue.Request.meter?]
    | working h d k job =>
      have hstage := Consumer.stage?_of_working doing
      obtain rfl : asked = false := hasked (by rw [hstage]; rfl)
      have hcalling : job.call? = some call := by
        rw [Consumer.call?, doing] at hcall
        exact hcall
      obtain ⟨command, hcommand⟩ := Job.exists_command hcalling
      obtain ⟨hhandle, hrequest⟩ := hs.errand_of_command doing hcalling hcommand
      obtain ⟨hstore, hmeter⟩ := Iteration.callOf_eq ⟨c.post, h, d, k⟩ command
      rw [hhandle, hrequest, hstore, hmeter, hstage,
        Consumer.settled?_of_working doing hcalling hcommand made]
      rcases progress with _ | _ | _ <;>
        simp [Queue.Progress.isDone, Queue.Progress.result?, Iteration.turned?]
    | ended exit =>
      rw [Consumer.call?, doing] at hcall
      cases hcall
  | _ =>
    rw [Plant.reading_of_stores (st.uncalled fun _ h => by cases h)]
    cases c.stage? <;> rfl

/-! ### Whoever else uses a store -/

/-- An agent that is no consumer never turns a meter of a store. -/
def Agent.Leaves (i : Nat) (m : Meter) : Agent → Prop
  | .caller call => call.handle.store = i → call.request.meter? ≠ some m
  | .receiver call | .source call =>
    call.handle.store = i → call.request.meter? ≠ some m ∧ m ≠ .deleted
  | _ => True

instance (i : Nat) (m : Meter) (a : Agent) : Decidable (a.Leaves i m) :=
  match a with
  | .caller call =>
    inferInstanceAs (Decidable (call.handle.store = i → call.request.meter? ≠ some m))
  | .receiver call | .source call =>
    inferInstanceAs (Decidable
      (call.handle.store = i → call.request.meter? ≠ some m ∧ m ≠ .deleted))
  | .consumer _ | .crew _ | .collector _ => isTrue trivial

section
variable {i : Nat} {m : Meter}

theorem Agent.lasting_leaves : Agent.Lasting (Agent.Leaves i m) := by
  intro p worker before p' after turn hbefore
  cases turn with
  | called made =>
    refine List.forall_mem_singleton.mpr fun hstore => ?_
    rw [(Plant.stepCall_same made).1] at hstore
    rw [(Plant.stepCall_same made).2]
    exact hbefore _ List.mem_cons_self hstore
  | awaited made =>
    refine List.forall_mem_singleton.mpr fun hstore => ?_
    rw [(Plant.stepCall_same made).1] at hstore
    rw [(Plant.stepCall_same made).2]
    exact hbefore _ List.mem_cons_self hstore
  | @received _ call _ _ reply =>
    intro a ha
    obtain ⟨deletion, hdeletion, rfl⟩ := List.mem_map.mp ha
    -- Whoever receives from a store deletes what it gets.
    cases reply with
    | done => cases hdeletion
    | batch ds =>
      obtain ⟨d, -, rfl⟩ := List.mem_map.mp hdeletion
      intro hstore hmeter
      exact (hbefore _ List.mem_cons_self hstore).2 (Option.some.inj hmeter).symm
  | resumed call =>
    have hcall := hbefore _ List.mem_cons_self
    exact List.forall_mem_cons.mpr ⟨hcall, List.forall_mem_singleton.mpr hcall⟩
  | worked => exact List.forall_mem_singleton.mpr trivial
  | hired => exact List.forall_mem_cons.mpr ⟨trivial, List.forall_mem_singleton.mpr trivial⟩
  | _ => exact List.forall_mem_nil _

variable {p p' : Plant} {before after : List Agent}

/-- A turn that is no consumer's step leaves a meter alone. -/
theorem Agent.Turn.touched_leaves (t : Agent.Turn p none before p' after)
    (hbefore : ∀ a ∈ before, a.Leaves i m) : Plant.Touched i (Deed.Leaves m) p p' := by
  have hcall : ∀ {canceled call move p₁ progress},
      p.stepCall canceled call move = some (p₁, progress) →
      (call.handle.store = i → call.request.meter? ≠ some m) →
      Plant.Touched i (Deed.Leaves m) p p₁ := by
    intro canceled call move p₁ progress made aside
    refine (Plant.touched_stepCall made).mono fun deed ⟨hdeed, hstore⟩ request hrequest => ?_
    cases hdeed.symm.trans hrequest
    exact aside hstore
  cases t with
  | idle | hired | resumed => exact .of_stores rfl
  | called made => exact hcall made (hbefore _ List.mem_cons_self)
  | answered made => exact hcall made (hbefore _ List.mem_cons_self)
  | awaited made => exact hcall made fun hi => (hbefore _ List.mem_cons_self hi).1
  | received made => exact hcall made fun hi => (hbefore _ List.mem_cons_self hi).1
  | missed made => exact hcall made fun hi => (hbefore _ List.mem_cons_self hi).1
  | collected made => exact .of_stores (by rw [(Plant.collectKeeper?_cases made).2])
  | dropped =>
    refine .of_stores ?_
    refine List.foldlRecOn (motive := fun q => q.stores = p.stores) before Agent.abandon rfl ?_
    intro q hq a _
    exact (Agent.stores_abandon q a).trans hq

/-! ### Runs -/

variable {w w' : World} {event : Event}

/-- An event turns the meter of the command that is carried out with it, and no other. -/
theorem World.step_reading (ko : w.plant.KeepersOrderly) (h : w.step event = some w')
    (shape : ∀ a ∈ w.agents, a.InShape) (leaves : ∀ a ∈ w.agents, a.Leaves i m) {s : Store}
    (hs : w.plant.stores[i]? = some s) :
    w'.plant.reading i m = w.plant.reading i m +
      if (⟨w, event, w'⟩ : Occurrence).turned? = some (i, m) then 1 else 0 := by
  rcases World.step_work h with
    ⟨hworker, hwork⟩ | ⟨j, made, canceled, c, move, c', rfl, -, hwork, st, goes⟩
  · have hturn : ∀ {worker}, worker = none →
        Agent.TurnIn w.plant worker w.agents w'.plant w'.agents →
        Plant.Touched i (Deed.Leaves m) w.plant w'.plant := by
      rintro worker rfl ⟨before, after, rest, hbefore, -, turn⟩
      refine turn.touched_leaves fun a ha => leaves a ?_
      exact hbefore.mem_iff.mpr (List.mem_append_left _ ha)
    have htouched : Plant.Touched i (Deed.Leaves m) w.plant w'.plant := by
      cases World.step_cases h with
      | moved turn => exact hturn hworker turn
      | dropped turn => exact hturn rfl turn
      | _ =>
        refine (World.step_upkeep ko h nofun nofun i).mono ?_
        rintro _ hdeed request rfl
        obtain ⟨d, rfl⟩ := hdeed
        exact nofun
    rw [htouched.reading hs, Occurrence.turned?, Occurrence.settled?, hwork]
    rfl
  · obtain ⟨after, rest, hbefore, -, -⟩ := goes
    have hc : c.InShape := shape (.consumer c) (hbefore.mem_iff.mpr List.mem_cons_self)
    have hturned : (⟨w, .move j made, w'⟩ : Occurrence).turned?
        = c.stage?.bind fun stage => (c.settled? w.plant move).bind stage.1.turned? := by
      rw [Occurrence.turned?, Occurrence.settled?_of_work hwork]
      rcases c.stage? with _ | stage
      · rfl
      · cases c.settled? w.plant move <;> rfl
    rw [st.reading hc i m, hturned]

/-- In every run a meter of a store shows what is on record, if consumers alone turn it. -/
theorem Run.reading {stores : List Store} {may : World → Event → Prop} {past : List Occurrence}
    {name : String} {lease : Nat} (hi : stores[i]? = some (.empty name lease))
    (run : Run stores may past w)
    (joined : ∀ w party, may w (.join party) → ∀ a ∈ party.agents, a.InShape ∧ a.Leaves i m) :
    ∃ s, w.plant.stores[i]? = some s ∧
      s.tally.read m = past.countP fun o => o.turned? = some (i, m) := by
  induction run with
  | start =>
    refine ⟨_, hi, ?_⟩
    cases m <;> rfl
  | @step past w w' event before allowed happens ih =>
    obtain ⟨s, hs, hread⟩ := ih
    obtain ⟨s', hs', -⟩ := World.step_touched before.keepersOrderly happens i s hs
    have shape := before.lasting Agent.lasting_inShape
      (fun w party hmay a ha => (joined w party hmay a ha).1) fun _ _ _ _ _ => rfl
    have leaves := before.lasting (Agent.lasting_leaves (i := i) (m := m))
      (fun w party hmay a ha => (joined w party hmay a ha).2) fun _ _ _ _ _ => trivial
    have hstep := World.step_reading before.keepersOrderly happens shape leaves hs
    rw [Plant.reading_of_store hs', Plant.reading_of_store hs, hread] at hstep
    refine ⟨s', hs', hstep.trans ?_⟩
    rw [List.countP_cons]
    simp only [decide_eq_true_eq]

end

end Leasework
