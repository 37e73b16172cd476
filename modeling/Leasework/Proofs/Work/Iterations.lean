import Leasework.Proofs.World.Parties

/-!
# `Leasework.Proofs.Work.Iterations`: the work on one request

An *iteration* is the work of a consumer on one request, from its beginning to its end. The
number of the keeper beside it tells it from all others, because no number is given out twice.

The record is read off the consumers. `Occurrence.work?` is the step that a consumer makes with
an event, `Occurrence.begun?` the iteration that begins with it, and `Occurrence.settled?` what a
queue call of an iteration came to that ends with it. All of them are computed from the event and
the world before it.

`Occurrence.Passes` lists what an event may come to for the iterations that are going on. An
iteration sends its response, then it deletes its request, and then it is over. So an iteration is
in one of two stages, before its response is accepted and after it, and `World.step_passes` says
that nothing else ever happens to it.
-/

set_option autoImplicit false

namespace Leasework

open Queue (Call Delivery Reply)
open Work (Command Consumer ConsumerMove Job)

/-! ### Iterations and their stages -/

namespace Work

/-- The work of a consumer on one request. -/
structure Iteration where
  /-- Where the consumer works. -/
  post : Post
  /-- The way to the store of the request. -/
  handle : Queue.Handle
  /-- The request. -/
  delivery : Delivery
  /-- The number of the keeper beside the work. -/
  number : Nat
deriving DecidableEq

namespace Job
variable {κ : Type}

/-- Whether a response has been accepted, so that only the deletion is left. -/
def isDeleting : Job κ → Bool
  | .deleting _ => true
  | _ => false

/-- The command whose call is going on. -/
def command? : Job κ → Option Command
  | .sending text _ => some (.send text)
  | .deleting _ => some .delete
  | .returning _ _ => some .giveBack
  | _ => none

theorem exists_command {job : Job κ} {call : κ} (h : job.call? = some call) :
    ∃ command, job.command? = some command := by
  cases job with
  | sending | deleting | returning => exact ⟨_, rfl⟩
  | _ => cases h

end Job

namespace Consumer

/-- The iteration of a consumer, and whether its response has been accepted. -/
def stage? (c : Consumer) : Option (Iteration × Bool) :=
  match c.activity with
  | .working h d k job => some (⟨c.post, h, d, k⟩, job.isDeleting)
  | _ => none

/-- The command whose call is going on. -/
def command? (c : Consumer) : Option Command :=
  match c.activity with
  | .working _ _ _ job => job.command?
  | _ => none

/-- What a call of the work on a request came to that ends with a move. Such a call is never
canceled. -/
def settled? (p : Plant) (c : Consumer) :
    ConsumerMove → Option (Command × Except Queue.Failure Reply)
  | .call move => do
    let command ← c.command?
    let call ← c.call?
    let (_, progress) ← p.stepCall false call move
    let result ← progress.result?
    some (command, result)
  | _ => none

end Consumer

end Work

/-- The iteration of an agent, and whether its response has been accepted. -/
def Agent.stage? : Agent → Option (Work.Iteration × Bool)
  | .consumer c => c.stage?
  | _ => none

/-- The iterations that are going on, each with its stage. -/
def World.stages (w : World) : List (Work.Iteration × Bool) := w.agents.filterMap Agent.stage?

/-- The iterations that are going on. -/
def World.iterations (w : World) : List Work.Iteration := w.stages.map Prod.fst

/-! ### What is on record -/

namespace Occurrence

/-- The step that a consumer makes with an event: what it is before, its move, and what it is
afterwards. -/
def work? (o : Occurrence) : Option (Consumer × ConsumerMove × Consumer) :=
  match o.event with
  | .move i _ => do
    let party ← o.before.parties[i]?
    let (c, move) ← o.before.worker? o.event
    let (_, c') ← c.step party.isCanceled o.before.plant move
    some (c, move, c')
  | _ => none

/-- The iteration that begins with an event: a consumer has received a request, or is given one. -/
def begun? (o : Occurrence) : Option Work.Iteration :=
  match o.event with
  | .assign post handle d => some ⟨post, handle, d, o.before.plant.numbered⟩
  | _ =>
    o.work?.bind fun (c, _, c') =>
      if c.stage?.isNone then c'.stage?.map Prod.fst else none

/-- What a call of an iteration came to that ends with an event. -/
def settled? (o : Occurrence) : Option (Work.Iteration × Command × Except Queue.Failure Reply) :=
  o.work?.bind fun (c, move, _) =>
    c.stage?.bind fun (x, _) =>
      (c.settled? o.before.plant move).map fun settled => (x, settled)

/-- The iteration whose response is accepted with an event. -/
def sent? (o : Occurrence) : Option Work.Iteration :=
  match o.settled? with
  | some (x, .send _, .ok _) => some x
  | _ => none

/-- The iteration that deletes its request with an event. -/
def deleted? (o : Occurrence) : Option Work.Iteration :=
  match o.settled? with
  | some (x, .delete, .ok _) => some x
  | _ => none

/-- The iteration that gives its request back with an event. -/
def returned? (o : Occurrence) : Option Work.Iteration :=
  match o.settled? with
  | some (x, .giveBack, .ok _) => some x
  | _ => none

section
variable {o : Occurrence} {x : Work.Iteration}

/-- A step of a consumer settles what the consumer does, for its iteration. -/
theorem settled?_of_work {c c' : Consumer} {move : ConsumerMove}
    (hwork : o.work? = some (c, move, c')) :
    o.settled? = c.stage?.bind fun stage =>
      (c.settled? o.before.plant move).map (stage.1, ·) := by
  simp only [settled?, hwork, Option.bind_some]

theorem sent?_eq_some :
    o.sent? = some x ↔ ∃ text reply, o.settled? = some (x, .send text, .ok reply) := by
  unfold sent?
  rcases o.settled? with _ | ⟨y, _ | _ | _, _ | _⟩ <;> simp

theorem deleted?_eq_some :
    o.deleted? = some x ↔ ∃ reply, o.settled? = some (x, .delete, .ok reply) := by
  unfold deleted?
  rcases o.settled? with _ | ⟨y, _ | _ | _, _ | _⟩ <;> simp

theorem returned?_eq_some :
    o.returned? = some x ↔ ∃ reply, o.settled? = some (x, .giveBack, .ok reply) := by
  unfold returned?
  rcases o.settled? with _ | ⟨y, _ | _ | _, _ | _⟩ <;> simp

end

end Occurrence

/-- The iterations that have begun, the newest first. -/
def begun (past : List Occurrence) : List Work.Iteration := past.filterMap Occurrence.begun?

/-- The iterations whose responses were accepted, the newest first. -/
def sent (past : List Occurrence) : List Work.Iteration := past.filterMap Occurrence.sent?

/-- The iterations that have deleted their requests, the newest first. -/
def deleted (past : List Occurrence) : List Work.Iteration := past.filterMap Occurrence.deleted?

/-! ### One step of a consumer -/

namespace Work.Consumer
variable {canceled : Bool} {p p' : Plant} {c c' : Consumer} {move : ConsumerMove}

/-- What a step of a consumer comes to for its iteration, and what a call of the iteration came
to that ends with the step. -/
inductive Passage (p p' : Plant) (c c' : Consumer) :
    Option (Command × Except Queue.Failure Reply) → Prop
  /-- There is no work. -/
  | idle (before : c.stage? = none) (after : c'.stage? = none) : Passage p p' c c' none
  /-- An iteration begins, with a new number. -/
  | began {d : Delivery} (before : c.stage? = none)
      (after : c'.stage? = some (⟨c.post, c.post.requests, d, p.numbered⟩, false))
      (next : p'.numbered = p.numbered + 1) : Passage p p' c c' none
  /-- It goes on. -/
  | went {x : Iteration} {isDeleting : Bool} (before : c.stage? = some (x, isDeleting))
      (after : c'.stage? = some (x, isDeleting)) : Passage p p' c c' none
  /-- Its response is accepted. -/
  | sent {x : Iteration} {text : String} {reply : Reply} (before : c.stage? = some (x, false))
      (after : c'.stage? = some (x, true)) : Passage p p' c c' (some (.send text, .ok reply))
  /-- Its response is not accepted. -/
  | unsent {x : Iteration} {text : String} {f : Queue.Failure}
      (before : c.stage? = some (x, false)) (after : c'.stage? = some (x, false)) :
      Passage p p' c c' (some (.send text, .error f))
  /-- It is over with the end of the deletion. -/
  | deleted {x : Iteration} {result : Except Queue.Failure Reply}
      (before : c.stage? = some (x, true)) (after : c'.stage? = none) :
      Passage p p' c c' (some (.delete, result))
  /-- It is over, and the request has been given back, if that has not failed. -/
  | returned {x : Iteration} {result : Except Queue.Failure Reply}
      (before : c.stage? = some (x, false)) (after : c'.stage? = none) :
      Passage p p' c c' (some (.giveBack, result))
  /-- It is over because its handler has crashed. -/
  | crashed {x : Iteration} (before : c.stage? = some (x, false)) (after : c'.stage? = none) :
      Passage p p' c c' none

theorem stage?_conclude (p : Plant) (c : Consumer) (result : Result) :
    (conclude p c result).2.stage? = none := by
  rcases conclude_consumer p c result with h | ⟨exit, h⟩
  · rw [h]
    rfl
  · rw [h]
    rfl

theorem stage?_of_exit? {exit : Exit} (h : c.exit? = some exit) : c.stage? = none := by
  unfold exit? at h
  split at h
  · rename_i ended
    rw [stage?, ended]
  · cases h

theorem stage?_eq_some {x : Iteration} {isDeleting : Bool}
    (h : c.stage? = some (x, isDeleting)) :
    ∃ job, c.activity = .working x.handle x.delivery x.number job ∧ c.post = x.post := by
  unfold stage? at h
  split at h
  · rename_i doing
    cases h
    exact ⟨_, doing, rfl⟩
  · cases h

theorem settled?_eq_some {command : Command} {result : Except Queue.Failure Reply}
    (h : c.settled? p move = some (command, result)) :
    ∃ callMove call p₁, move = .call callMove ∧ c.command? = some command ∧
      c.call? = some call ∧ p.stepCall false call callMove = some (p₁, .ended result) := by
  unfold settled? at h
  split at h
  case h_2 => cases h
  simp only [bind, Option.bind_eq_some_iff] at h
  obtain ⟨command, hcommand, call, hcall, ⟨p₁, progress⟩, made, result, hresult, heq⟩ := h
  cases heq
  cases progress with
  | going => cases hresult
  | ended =>
    cases hresult
    exact ⟨_, call, p₁, rfl, hcommand, hcall, made⟩

section
variable {h : Queue.Handle} {d : Delivery} {k : Nat} {job : Job Call} {call : Call}
  {callMove : Queue.CallMove} {progress : Queue.Progress}

theorem stage?_of_working (doing : c.activity = .working h d k job) :
    c.stage? = some (⟨c.post, h, d, k⟩, job.isDeleting) := by
  rw [stage?, doing]

theorem settled?_of_receiving (doing : c.activity = .receiving call) :
    c.settled? p (.call callMove) = none := by
  simp only [settled?, command?, doing, bind, Option.bind_none]

/-- A step of a call of the work settles the command of the call, if the call is over. -/
theorem settled?_of_working {command : Command} (doing : c.activity = .working h d k job)
    (calling : job.call? = some call) (commanded : job.command? = some command)
    (made : p.stepCall false call callMove = some (p', progress)) :
    c.settled? p (.call callMove) = progress.result?.map fun result => (command, result) := by
  have hcall : c.call? = some call := by
    rw [call?, doing]
    exact calling
  have hcommand : c.command? = some command := by
    rw [command?, doing]
    exact commanded
  simp only [settled?, hcommand, hcall, made, bind, Option.bind_some]
  cases progress <;> rfl

end

/-- A step of the call of a consumer leaves on the stores what the call leaves there. The calls of
the work are never canceled. -/
theorem Step.called {callMove : Queue.CallMove}
    (st : c.Step canceled p (.call callMove) p' c') :
    ∃ call asked p₁ progress, c.call? = some call ∧ (c.stage?.isSome → asked = false) ∧
      p.stepCall asked call callMove = some (p₁, progress) ∧ p'.stores = p₁.stores := by
  have hreceiving : ∀ {call}, c.activity = .receiving call →
      c.call? = some call ∧ (c.stage?.isSome → canceled = false) := by
    intro call doing
    rw [call?, stage?, doing]
    exact ⟨rfl, fun hstage => by cases hstage⟩
  have hworking : ∀ {h d k job call}, c.activity = .working h d k job → job.call? = some call →
      c.call? = some call := by
    intro h d k job call doing calling
    rw [call?, doing]
    exact calling
  cases st with
  | waited doing made | began doing made =>
    obtain ⟨hcall, hasked⟩ := hreceiving doing
    exact ⟨_, _, _, _, hcall, hasked, made, rfl⟩
  | unserved doing made =>
    obtain ⟨hcall, hasked⟩ := hreceiving doing
    obtain ⟨boards, hplant⟩ := conclude_plant _ c _
    rw [hplant]
    exact ⟨_, _, _, _, hcall, hasked, made, rfl⟩
  | proceeded doing calling made =>
    exact ⟨_, _, _, _, hworking doing calling, fun _ => rfl, made, rfl⟩
  | sent doing made | unsent doing made =>
    exact ⟨_, _, _, _, hworking doing rfl, fun _ => rfl, made, rfl⟩
  | closed doing calling made =>
    obtain ⟨boards, hplant⟩ := conclude_plant _ c _
    rw [hplant]
    exact ⟨_, _, _, _, hworking doing calling, fun _ => rfl, made, rfl⟩

/-- Any other step leaves the stores alone. -/
theorem Step.uncalled (st : c.Step canceled p move p' c') (h : ∀ callMove, move ≠ .call callMove) :
    p'.stores = p.stores := by
  cases st with
  | answered => rfl
  | crashed => rfl
  | settled _ made => rw [(Plant.collectKeeper?_cases made).2]
  | refused _ made => rw [(Plant.collectKeeper?_cases made).2]
  | _ => exact absurd rfl (h _)

/-- Whatever step a consumer makes, it is one of these for its iteration. -/
theorem Step.passage (st : c.Step canceled p move p' c') :
    Passage p p' c c' (c.settled? p move) := by
  have hreceiving : ∀ {call callMove}, c.activity = .receiving call →
      c.stage? = none ∧ c.settled? p (.call callMove) = none := by
    intro call callMove doing
    exact ⟨by rw [stage?, doing], settled?_of_receiving doing⟩
  cases st with
  | waited doing =>
    obtain ⟨hstage, hsettled⟩ := hreceiving doing
    rw [hsettled]
    exact .idle hstage rfl
  | @began call callMove p₁ d rest doing came =>
    obtain ⟨hstage, hsettled⟩ := hreceiving doing
    obtain ⟨s, s', -, -, rfl⟩ := Plant.stepCall_cases came
    rw [hsettled]
    exact .began hstage rfl rfl
  | unserved doing =>
    obtain ⟨hstage, hsettled⟩ := hreceiving doing
    rw [hsettled]
    exact .idle hstage (stage?_conclude _ _ _)
  | @proceeded h d k job call call' callMove p₁ doing calling went =>
    -- A call goes on, and so it settles nothing. Only three jobs make a call.
    cases job with
    | sending | deleting | returning =>
      rw [settled?_of_working doing calling rfl went]
      exact .went (stage?_of_working doing) rfl
    | _ => cases calling
  | sent doing ended =>
    rw [settled?_of_working doing rfl rfl ended]
    exact .sent (stage?_of_working doing) rfl
  | unsent doing ended =>
    rw [settled?_of_working doing rfl rfl ended]
    exact .unsent (stage?_of_working doing) rfl
  | @closed h d k job call callMove p₁ r result doing calling ended last =>
    cases job with
    | deleting =>
      rw [settled?_of_working doing calling rfl ended]
      exact .deleted (stage?_of_working doing) (stage?_conclude _ _ _)
    | returning =>
      rw [settled?_of_working doing calling rfl ended]
      exact .returned (stage?_of_working doing) (stage?_conclude _ _ _)
    -- After a response the work goes on, and without a call it cannot end here.
    | sending => cases r <;> cases last
    | _ => cases calling
  | answered a doing => exact .went (stage?_of_working doing) rfl
  | crashed text doing => exact .crashed (stage?_of_working doing) rfl
  | settled doing => exact .went (stage?_of_working doing) rfl
  | refused doing => exact .went (stage?_of_working doing) rfl

/-- What a consumer works on after a step it worked on before, or it has just received it at its
post. -/
theorem Step.iteration_cases (st : c.Step canceled p move p' c') {x : Iteration}
    {isDeleting : Bool} (h : c'.stage? = some (x, isDeleting)) :
    (∃ wasDeleting, c.stage? = some (x, wasDeleting)) ∨
      x.post = c.post ∧ x.handle = c.post.requests := by
  have hpassage := st.passage
  generalize c.settled? p move = settled at hpassage
  cases hpassage with
  | began before after =>
    cases after.symm.trans h
    exact Or.inr ⟨rfl, rfl⟩
  | went before after | sent before after | unsent before after =>
    cases after.symm.trans h
    exact Or.inl ⟨_, before⟩
  | idle _ after | deleted _ after | returned _ after | crashed _ after =>
    cases after.symm.trans h

end Work.Consumer

/-! ### The step of a consumer among the others -/

/-- The agents of a collection before and after a consumer among them has made a step. Who has
ended may be gone. -/
def Agent.Goes (c c' : Consumer) (agents agents' : List Agent) : Prop :=
  ∃ after rest, agents.Perm (.consumer c :: rest) ∧ agents'.Perm (after ++ rest) ∧
    (after = [.consumer c'] ∨ after = [] ∧ c'.exit?.isSome)

theorem Agent.Goes.append {c c' : Consumer} {agents agents' all all' others : List Agent}
    (g : Agent.Goes c c' agents agents') (h : all.Perm (agents ++ others))
    (h' : all'.Perm (agents' ++ others)) : Agent.Goes c c' all all' := by
  obtain ⟨after, rest, hbefore, hafter, hcases⟩ := g
  refine ⟨after, rest ++ others, h.trans (hbefore.append_right others), ?_, hcases⟩
  rw [← List.append_assoc]
  exact h'.trans (hafter.append_right others)

section
variable {p p' : Plant} {c : Consumer} {move : ConsumerMove}

/-- A move of a crew that is a move of one of its consumers is a step of that consumer. -/
theorem Crew.Run.step_work {isShut : Bool} {r r' : Crew.Run} {made : Crew.Move}
    (h : r.step isShut p made = some (p', r')) (hworker : r.worker? made = some (c, move)) :
    ∃ c', c.step isShut p move = some (p', c') ∧
      Agent.Goes c c' (Agent.ofCrew r) (Agent.ofCrew r') := by
  unfold worker? at hworker
  split at hworker
  case h_2 => cases hworker
  rename_i i cmove
  split at hworker <;> cases hworker
  rename_i running
  simp only [step, running, bind, Option.bind_eq_some_iff] at h
  obtain ⟨⟨p₁, c'⟩, hstep, h⟩ := h
  obtain ⟨roster, hroster, rfl, rfl⟩ := onRoster_eq_some.mp h
  refine ⟨c', hstep, ?_⟩
  -- The slot is exchanged for another one, in which the consumer runs on or which is idle.
  have hslot : ∃ slot, roster.slots = r.roster.slots.set i slot ∧
      (Agent.ofSlot slot = [.consumer c'] ∨ Agent.ofSlot slot = [] ∧ c'.exit?.isSome) := by
    simp only [settleSlot] at hroster
    split at hroster
    · cases hroster
      exact ⟨.running c', rfl, Or.inl rfl⟩
    · rename_i f hexit
      simp only [Roster.slotEnded, running, if_true] at hroster
      cases hroster
      exact ⟨_, rfl, Or.inr ⟨rfl, by rw [hexit]; rfl⟩⟩
    · rename_i exit _ hexit
      simp only [Roster.slotEnded, running, Bool.false_eq_true, if_false] at hroster
      cases hroster
      exact ⟨.over, rfl, Or.inr ⟨rfl, by rw [hexit]; rfl⟩⟩
  obtain ⟨slot, hslots, hcases⟩ := hslot
  refine ⟨Agent.ofSlot slot, .crew r.post :: (r.roster.slots.eraseIdx i).flatMap Agent.ofSlot,
    ?_, ?_, hcases⟩
  · exact ((perm_flatMap_eraseIdx Agent.ofSlot running).cons _).trans (.swap _ _ _)
  · show (Agent.crew r.post :: roster.slots.flatMap Agent.ofSlot).Perm _
    rw [hslots]
    exact ((perm_flatMap_set Agent.ofSlot slot running).cons _).trans List.perm_middle.symm

/-- A move of a party that is a move of one of its consumers is a step of that consumer. -/
theorem Party.step_work {party party' : Party} {made : PartyMove}
    (h : party.step p made = some (p', party')) (hworker : party.worker? made = some (c, move)) :
    ∃ c', c.step party.isCanceled p move = some (p', c') ∧
      Agent.Goes c c' party.agents party'.agents := by
  obtain ⟨isCanceled, task⟩ := party
  unfold worker? at hworker
  split at hworker
  · rename_i htask
    obtain rfl : task = _ := htask
    cases hworker
    simp only [Party.step, bind, Option.bind_eq_some_iff] at h
    obtain ⟨⟨p₁, c'⟩, hstep, heq⟩ := h
    cases heq
    exact ⟨c', hstep, [.consumer c'], [], .refl _, .refl _, Or.inl rfl⟩
  · rename_i htask
    obtain rfl : task = _ := htask
    simp only [Party.step, bind, Option.bind_eq_some_iff] at h
    obtain ⟨⟨p₁, r'⟩, hstep, heq⟩ := h
    cases heq
    exact Crew.Run.step_work hstep hworker
  · cases hworker

theorem Party.mem_of_worker? {party : Party} {made : PartyMove}
    (h : party.worker? made = some (c, move)) :
    .consumer c ∈ party.agents := by
  obtain ⟨isCanceled, task⟩ := party
  unfold worker? at h
  split at h
  · rename_i htask
    obtain rfl : task = _ := htask
    cases h
    exact List.mem_singleton.mpr rfl
  · rename_i r htask
    obtain rfl : task = _ := htask
    unfold Crew.Run.worker? at h
    split at h
    case h_2 => cases h
    split at h <;> cases h
    rename_i running
    refine List.mem_cons_of_mem _ (List.mem_flatMap.mpr ⟨_, List.mem_of_getElem? running, ?_⟩)
    exact List.mem_singleton.mpr rfl
  · cases h

variable {w w' : World} {event : Event}

theorem World.mem_of_worker? (h : w.worker? event = some (c, move)) :
    .consumer c ∈ w.agents := by
  cases event with
  | move j made =>
    obtain ⟨party, hj, hparty⟩ := Option.bind_eq_some_iff.mp h
    exact List.mem_flatMap.mpr ⟨party, List.mem_of_getElem? hj, Party.mem_of_worker? hparty⟩
  | _ => cases h

/-- An event is a step of a consumer, which is on record, or it is no consumer's step. -/
theorem World.step_work (h : w.step event = some w') :
    (w.worker? event = none ∧ Occurrence.work? ⟨w, event, w'⟩ = none) ∨
      ∃ i made canceled c move c', event = .move i made ∧ w.worker? event = some (c, move) ∧
        Occurrence.work? ⟨w, event, w'⟩ = some (c, move, c') ∧
        c.Step canceled w.plant move w'.plant c' ∧ Agent.Goes c c' w.agents w'.agents := by
  cases hworker : w.worker? event with
  | none =>
    refine Or.inl ⟨rfl, ?_⟩
    unfold Occurrence.work?
    split
    · simp only [hworker, bind, Option.bind_none, Option.bind_fun_none]
    · rfl
  | some worker =>
    obtain ⟨c, move⟩ := worker
    cases event with
    | move i made =>
      have hw := hworker
      simp only [step, bind, Option.bind_eq_some_iff] at h
      obtain ⟨party, hi, ⟨p', party'⟩, hparty, heq⟩ := h
      cases heq
      simp only [worker?, hi, Option.bind_some] at hworker
      obtain ⟨c', hstep, hgoes⟩ := Party.step_work hparty hworker
      refine Or.inr ⟨i, made, party.isCanceled, c, move, c', rfl, rfl, ?_,
        Consumer.step_cases hstep, ?_⟩
      · simp only [Occurrence.work?, hi, hw, hstep, bind, Option.bind_some]
      · exact hgoes.append (perm_flatMap_eraseIdx Party.agents hi)
          (perm_flatMap_set Party.agents party' hi)
    | _ => cases hworker

/-- Only the consumer that makes a step settles anything. -/
theorem World.settled?_eq (h : w.step event = some w') :
    Occurrence.settled? ⟨w, event, w'⟩ = (w.worker? event).bind fun worker =>
      worker.1.stage?.bind fun stage =>
        (worker.1.settled? w.plant worker.2).map (stage.1, ·) := by
  rcases World.step_work h with
    ⟨hworker, hwork⟩ | ⟨_, _, _, c, move, c', rfl, hworker, hwork, -, -⟩
  · rw [Occurrence.settled?, hworker, hwork, Option.bind_none, Option.bind_none]
  · rw [Occurrence.settled?_of_work hwork, hworker, Option.bind_some]

end

/-! ### What an event comes to for the iterations -/

/-- Whoever joins does no work yet. -/
def Event.JoinsIdle : Event → Prop
  | .join party => ∀ a ∈ party.agents, a.stage? = none
  | _ => True

instance (event : Event) : Decidable event.JoinsIdle :=
  match event with
  | .join party => inferInstanceAs (Decidable (∀ a ∈ party.agents, a.stage? = none))
  | .advance _ => isTrue trivial
  | .cancel _ => isTrue trivial
  | .inject .. => isTrue trivial
  | .observe _ => isTrue trivial
  | .keeper _ => isTrue trivial
  | .keep .. => isTrue trivial
  | .stop _ => isTrue trivial
  | .leave _ => isTrue trivial
  | .board => isTrue trivial
  | .assign .. => isTrue trivial
  | .move .. => isTrue trivial
  | .drop _ => isTrue trivial

/-- What an event on record comes to for the iterations that are going on. -/
inductive Occurrence.Passes (o : Occurrence) : Prop
  /-- Some are dropped, perhaps none, and no consumer makes a step. -/
  | left {gone rest : List (Work.Iteration × Bool)} (before : o.before.stages.Perm (gone ++ rest))
      (after : o.after.stages.Perm rest) (unworked : o.work? = none) (unbegun : o.begun? = none) :
      Passes o
  /-- One begins, with a new number. -/
  | began {x : Work.Iteration} (after : o.after.stages.Perm ((x, false) :: o.before.stages))
      (new : x.number = o.before.plant.numbered)
      (next : o.after.plant.numbered = o.before.plant.numbered + 1)
      (begins : o.begun? = some x) (quiet : o.settled? = none) : Passes o
  /-- They go on, or a consumer waits for a request. -/
  | went (same : o.after.stages.Perm o.before.stages) (unbegun : o.begun? = none)
      (quiet : o.settled? = none) : Passes o
  /-- A response is accepted. -/
  | sent {x : Work.Iteration} {rest : List (Work.Iteration × Bool)} {text : String} {reply : Reply}
      (before : o.before.stages.Perm ((x, false) :: rest))
      (after : o.after.stages.Perm ((x, true) :: rest)) (unbegun : o.begun? = none)
      (settles : o.settled? = some (x, .send text, .ok reply)) : Passes o
  /-- A response is not accepted. -/
  | unsent {x : Work.Iteration} {text : String} {f : Queue.Failure}
      (same : o.after.stages.Perm o.before.stages) (unbegun : o.begun? = none)
      (settles : o.settled? = some (x, .send text, .error f)) : Passes o
  /-- One is over with the end of its deletion. -/
  | deleted {x : Work.Iteration} {rest : List (Work.Iteration × Bool)}
      {result : Except Queue.Failure Reply} (before : o.before.stages.Perm ((x, true) :: rest))
      (after : o.after.stages.Perm rest) (unbegun : o.begun? = none)
      (settles : o.settled? = some (x, .delete, result)) : Passes o
  /-- One is over, and its request has been given back, if that has not failed. -/
  | returned {x : Work.Iteration} {rest : List (Work.Iteration × Bool)}
      {result : Except Queue.Failure Reply} (before : o.before.stages.Perm ((x, false) :: rest))
      (after : o.after.stages.Perm rest) (unbegun : o.begun? = none)
      (settles : o.settled? = some (x, .giveBack, result)) : Passes o
  /-- One is over because its handler has crashed. -/
  | crashed {x : Work.Iteration} {rest : List (Work.Iteration × Bool)}
      (before : o.before.stages.Perm ((x, false) :: rest)) (after : o.after.stages.Perm rest)
      (unbegun : o.begun? = none) (quiet : o.settled? = none) : Passes o

/-- The stages of a collection in which a consumer has made a step. -/
theorem Agent.Goes.stages {c c' : Consumer} {agents agents' : List Agent}
    (g : Agent.Goes c c' agents agents') :
    ∃ rest, (agents.filterMap Agent.stage?).Perm (c.stage?.toList ++ rest) ∧
      (agents'.filterMap Agent.stage?).Perm (c'.stage?.toList ++ rest) := by
  obtain ⟨after, rest, hbefore, hafter, hcases⟩ := g
  have hsingle : ∀ c : Consumer, [Agent.consumer c].filterMap Agent.stage? = c.stage?.toList := by
    intro c
    have hstage : (Agent.consumer c).stage? = c.stage? := rfl
    cases h : c.stage? <;> simp [hstage, h]
  have hgone : after.filterMap Agent.stage? = c'.stage?.toList := by
    rcases hcases with rfl | ⟨rfl, hexit⟩
    · exact hsingle c'
    · obtain ⟨exit, hexit⟩ := Option.isSome_iff_exists.mp hexit
      rw [Consumer.stage?_of_exit? hexit]
      rfl
  refine ⟨rest.filterMap Agent.stage?, ?_, ?_⟩
  · rw [← hsingle, ← List.filterMap_append]
    exact hbefore.filterMap _
  · rw [← hgone, ← List.filterMap_append]
    exact hafter.filterMap _

section
variable {w w' : World} {event : Event}

/-- What the step of a consumer comes to for its iteration, it comes to for all of them. -/
theorem Work.Consumer.Passage.passes {o : Occurrence} {c c' : Consumer} {move : ConsumerMove}
    (ps : Passage o.before.plant o.after.plant c c' (c.settled? o.before.plant move))
    (moved : ∃ i made, o.event = .move i made) (worked : o.work? = some (c, move, c'))
    (goes : Agent.Goes c c' o.before.agents o.after.agents) : o.Passes := by
  obtain ⟨i, made, hevent⟩ := moved
  obtain ⟨rest, hbefore, hafter⟩ := goes.stages
  have hbegun : o.begun? = if c.stage?.isNone then c'.stage?.map Prod.fst else none := by
    simp only [Occurrence.begun?, hevent, worked, Option.bind_some]
  have hsettled := Occurrence.settled?_of_work worked
  generalize c.settled? o.before.plant move = settled at ps hsettled
  cases ps with
  | idle before after =>
    rw [before] at hbefore hbegun hsettled
    rw [after] at hafter hbegun
    exact .went (hafter.trans hbefore.symm) hbegun hsettled
  | began before after next =>
    rw [before] at hbefore hbegun hsettled
    rw [after] at hafter hbegun
    exact .began (hafter.trans (hbefore.symm.cons _)) rfl next hbegun hsettled
  | went before after =>
    rw [before] at hbefore hbegun hsettled
    rw [after] at hafter
    exact .went (hafter.trans hbefore.symm) hbegun hsettled
  | sent before after =>
    rw [before] at hbefore hbegun hsettled
    rw [after] at hafter
    exact .sent hbefore hafter hbegun hsettled
  | unsent before after =>
    rw [before] at hbefore hbegun hsettled
    rw [after] at hafter
    exact .unsent (hafter.trans hbefore.symm) hbegun hsettled
  | deleted before after =>
    rw [before] at hbefore hbegun hsettled
    rw [after] at hafter
    exact .deleted hbefore hafter hbegun hsettled
  | returned before after =>
    rw [before] at hbefore hbegun hsettled
    rw [after] at hafter
    exact .returned hbefore hafter hbegun hsettled
  | crashed before after =>
    rw [before] at hbefore hbegun hsettled
    rw [after] at hafter
    exact .crashed hbefore hafter hbegun hsettled

/-- A turn that is no consumer's step begins no work. -/
theorem Agent.Turn.stages_eq_nil {p p' : Plant} {before after : List Agent}
    (turn : Agent.Turn p none before p' after) : after.filterMap Agent.stage? = [] := by
  cases turn with
  | received =>
    refine List.filterMap_eq_nil_iff.mpr fun a ha => ?_
    obtain ⟨call, -, rfl⟩ := List.mem_map.mp ha
    rfl
  | _ => rfl

/-- Whatever happens, it comes to one of these for the iterations. -/
theorem World.step_passes (h : w.step event = some w') (idle : event.JoinsIdle) :
    (⟨w, event, w'⟩ : Occurrence).Passes := by
  rcases World.step_work h with
    ⟨hworker, hwork⟩ | ⟨i, made, _, c, move, c', rfl, -, hwork, st, goes⟩
  · have hturn : ∀ {worker}, worker = none →
        Agent.TurnIn w.plant worker w.agents w'.plant w'.agents →
        (⟨w, event, w'⟩ : Occurrence).begun? = none → (⟨w, event, w'⟩ : Occurrence).Passes := by
      rintro worker rfl ⟨before, after, rest, hbefore, hafter, turn⟩ hbegun
      have hgone := hbefore.filterMap Agent.stage?
      have hrest := hafter.filterMap Agent.stage?
      rw [List.filterMap_append] at hgone hrest
      rw [turn.stages_eq_nil, List.nil_append] at hrest
      exact .left hgone hrest hwork hbegun
    have quiet : (⟨w, event, w'⟩ : Occurrence).settled? = none := by
      simp only [Occurrence.settled?, hwork, Option.bind_none]
    cases World.step_cases h with
    | moved turn =>
      exact hturn hworker turn (by simp only [Occurrence.begun?, hwork, Option.bind_none])
    | dropped turn =>
      exact hturn rfl turn (by simp only [Occurrence.begun?, hwork, Option.bind_none])
    | canceled same =>
      exact .went (same.filterMap _) (by simp only [Occurrence.begun?, hwork, Option.bind_none])
        quiet
    | @joined party =>
      -- Nobody who joins does any work, so the iterations stay as they are.
      have hnone : party.agents.filterMap Agent.stage? = [] :=
        List.filterMap_eq_nil_iff.mpr idle
      have hafter : (⟨w.plant, w.parties ++ [party]⟩ : World).stages = w.stages := by
        rw [World.stages, agents_append, List.filterMap_append, hnone, List.append_nil]
        rfl
      exact .went (.of_eq hafter) (by simp only [Occurrence.begun?, hwork, Option.bind_none]) quiet
    | @assigned post handle d =>
      refine .began (x := ⟨post, handle, d, w.plant.numbered⟩) ?_ rfl rfl rfl quiet
      show ((⟨_, w.parties ++ [_]⟩ : World).agents.filterMap _).Perm _
      rw [agents_append, List.filterMap_append]
      exact List.perm_append_comm
    | _ =>
      exact .went (.refl _) (by simp only [Occurrence.begun?, hwork, Option.bind_none]) quiet
  · exact st.passage.passes ⟨i, made, rfl⟩ hwork goes

/-! ### What stands behind the record -/

/-- A consumer in shape that is at a command makes the call of that command. -/
theorem Work.Consumer.InShape.errand_of_command {c : Consumer} (hs : c.InShape)
    {h : Queue.Handle} {d : Delivery} {k : Nat} {job : Job Call} {call : Call} {command : Command}
    (doing : c.activity = .working h d k job) (calling : job.call? = some call)
    (commanded : job.command? = some command) :
    call.handle = (Consumer.callOf c.post h d command).handle ∧
      call.request = (Consumer.callOf c.post h d command).request := by
  have hcall : c.call? = some call := by
    rw [Consumer.call?, doing]
    exact calling
  refine hs.errand hcall ?_
  rw [Consumer.duty?, doing]
  cases job <;> cases commanded <;> rfl

/-- Behind every call on record that has settled a command of an iteration there is a consumer
at work on it, and the stores are as the call has left them. -/
theorem World.step_settled (h : w.step event = some w') (shape : ∀ a ∈ w.agents, a.InShape)
    {x : Work.Iteration} {command : Command} {result : Except Queue.Failure Reply}
    (hs : (⟨w, event, w'⟩ : Occurrence).settled? = some (x, command, result)) :
    ∃ c job call move p₁, Agent.consumer c ∈ w.agents ∧ w.worker? event = some (c, .call move) ∧
      c.post = x.post ∧ c.activity = .working x.handle x.delivery x.number job ∧
      job.command? = some command ∧ job.call? = some call ∧
      call.handle = (Consumer.callOf x.post x.handle x.delivery command).handle ∧
      call.request = (Consumer.callOf x.post x.handle x.delivery command).request ∧
      w.plant.stepCall false call move = some (p₁, .ended result) ∧
      w'.plant.stores = p₁.stores := by
  rcases World.step_work h with
    ⟨-, hwork⟩ | ⟨i, made, canceled, c, move, c', rfl, hworker, hwork, st, goes⟩
  · rw [Occurrence.settled?, hwork] at hs
    cases hs
  · obtain ⟨after, rest, hbefore, -, -⟩ := goes
    have hc : Agent.consumer c ∈ w.agents := hbefore.mem_iff.mpr List.mem_cons_self
    rw [Occurrence.settled?_of_work hwork] at hs
    simp only [Option.bind_eq_some_iff, Option.map_eq_some_iff] at hs
    obtain ⟨⟨y, b⟩, hstage, settled, hsettled, heq⟩ := hs
    cases heq
    obtain ⟨callMove, call, p₁, rfl, hcommand, hcall, made'⟩ :=
      Consumer.settled?_eq_some hsettled
    obtain ⟨job, doing, hpost⟩ := Consumer.stage?_eq_some hstage
    have hcalling : job.call? = some call := by
      rw [Consumer.call?, doing] at hcall
      exact hcall
    have hcommanded : job.command? = some command := by
      rw [Consumer.command?, doing] at hcommand
      exact hcommand
    have herrand := (shape _ hc : c.InShape).errand_of_command doing hcalling hcommanded
    rw [hpost] at herrand
    refine ⟨c, job, call, callMove, p₁, hc, hworker, hpost, doing, hcommanded, hcalling,
      herrand.1, herrand.2, made', ?_⟩
    -- The same call has made the step, so the stores are the same as well.
    obtain ⟨call₂, asked, p₂, progress, hcall₂, hasked, made₂, hstores⟩ := st.called
    obtain rfl : call₂ = call := Option.some.inj (hcall₂.symm.trans hcall)
    obtain rfl : asked = false := hasked (by rw [Consumer.stage?_of_working doing]; rfl)
    cases made'.symm.trans made₂
    exact hstores

/-- An iteration begins with a message that has been handed over, or with one that its consumer
has just received. -/
theorem World.step_begun (h : w.step event = some w') {x : Work.Iteration}
    (hb : (⟨w, event, w'⟩ : Occurrence).begun? = some x) :
    event = .assign x.post x.handle x.delivery ∨
      ∃ c call canceled move p₁ rest, Agent.consumer c ∈ w.agents ∧ c.post = x.post ∧
        x.handle = c.post.requests ∧ c.activity = .receiving call ∧
        w.plant.stepCall canceled call move
          = some (p₁, .ended (.ok (.batch (x.delivery :: rest)))) ∧
        w'.plant.stores = p₁.stores := by
  unfold Occurrence.begun? at hb
  split at hb
  · rename_i hevent
    obtain rfl : event = _ := hevent
    cases hb
    exact Or.inl rfl
  · rcases World.step_work h with
      ⟨-, hwork⟩ | ⟨i, made, canceled, c, move, c', rfl, -, hwork, st, goes⟩
    · rw [hwork] at hb
      cases hb
    · obtain ⟨after, rest, hbefore, -, -⟩ := goes
      simp only [hwork, Option.bind_some] at hb
      split at hb
      case isFalse => cases hb
      rename_i hidle
      obtain ⟨⟨y, b⟩, hstage, rfl⟩ := Option.map_eq_some_iff.mp hb
      obtain ⟨job, doing, hpost⟩ := Consumer.stage?_eq_some hstage
      rcases st.working_cases doing with ⟨job', doing', -⟩ |
        ⟨hhandle, -, call, callMove, p₁, rest', hreceiving, came, -, hplant⟩
      · rw [Consumer.stage?_of_working doing'] at hidle
        cases hidle
      · refine Or.inr ⟨c, call, canceled, callMove, p₁, rest',
          hbefore.mem_iff.mpr List.mem_cons_self, st.post.symm.trans hpost, hhandle, hreceiving,
          came, ?_⟩
        rw [hplant]
        rfl

end

end Leasework
