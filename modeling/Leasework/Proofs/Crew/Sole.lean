import Leasework.Proofs.Crew.Manned
import Leasework.Proofs.Queue.Line
import Leasework.Proofs.Work.Iterations

/-!
# `Leasework.Proofs.Crew.Sole`: a crew alone between two stores

`Crew.Sole` says what the surroundings of a crew are held to that has two stores to itself. The
crew joins at a place, and is neither dropped nor told to abort its consumers; its handlers do not
crash. Whoever else joins keeps out: it may send requests and renew leases, but takes no request,
gives none back, deletes none, and sends no response.

What the crew has *in hand* is what its consumers work on. A crew with one slot has at most one
request in hand (`Crew.Run.Step.hand_cases`). Everybody else leaves the line of the requests in
order, and brings no response (`World.step_quiet`).
-/

set_option autoImplicit false

namespace Leasework

open Queue (Call Deed Store)
open Work (Command Consumer ConsumerMove Iteration Job Post)

/-! ### What a crew has in hand -/

section
variable {α β : Type} {f : α → Option β} {l : List α} {j : Nat} {a : α}

/-- What a list comes to does not depend on an entry that comes to nothing. -/
theorem filterMap_eraseIdx (h : l[j]? = some a) (hf : f a = none) :
    (l.eraseIdx j).filterMap f = l.filterMap f := by
  induction l generalizing j with
  | nil => rfl
  | cons b l ih =>
    cases j with
    | zero =>
      obtain rfl : b = a := Option.some.inj h
      exact (List.filterMap_cons_none hf).symm
    | succ j =>
      rw [List.eraseIdx_cons_succ, List.filterMap_cons, List.filterMap_cons, ih h]

/-- If no other entry of a list comes to anything, it is this one that matters. -/
theorem head?_filterMap_of_sole (h : l[j]? = some a)
    (others : ∀ b ∈ l.eraseIdx j, f b = none) : (l.filterMap f).head? = f a := by
  obtain ⟨hj, rfl⟩ := List.getElem?_eq_some_iff.mp h
  have hperm := (List.getElem_cons_eraseIdx_perm hj).filterMap f
  rw [List.filterMap_cons, List.filterMap_eq_nil_iff.mpr others] at hperm
  cases hf : f l[j] with
  | none =>
    rw [hf] at hperm
    rw [← hperm.nil_eq]
    rfl
  | some b =>
    rw [hf] at hperm
    rw [List.perm_singleton.mp hperm.symm]
    rfl

end

namespace Crew

/-- What is worked on in a slot, and how far it is. -/
def Slot.stage? : Slot Consumer → Option (Iteration × Bool)
  | .running c => c.stage?
  | _ => none

/-- What a consumer of a crew works on, the first one that works on anything. -/
def Run.hand? (r : Run) : Option (Iteration × Bool) :=
  (r.roster.slots.filterMap Slot.stage?).head?

variable {isShut : Bool} {p p' : Plant} {r : Run} {move : Move} {roster : Roster Consumer}
  {post : Post} {o : Options} {now : Nat}

/-- In a crew with one slot, whatever is in hand is in the slot that holds the permit. -/
theorem Run.InOrder.hand_of_slot (ord : r.InOrder post o now) (size : o.size = 1) {j : Nat}
    {slot : Slot Consumer} (hslot : r.roster.slots[j]? = some slot) (holds : slot.holds = true) :
    r.hand? = slot.stage? ∧
      ∀ slot', ((r.roster.slots.set j slot').filterMap Slot.stage?).head? = slot'.stage? := by
  have hothers : ∀ other ∈ r.roster.slots.eraseIdx j, Slot.stage? other = none := by
    intro other hother
    have hcount := countP_of_getElem? Slot.holds hslot
    have hbalance := ord.balance
    rw [ord.size, size] at hbalance
    rw [holds, if_pos rfl] at hcount
    have hnone : (r.roster.slots.eraseIdx j).countP Slot.holds = 0 := by omega
    have hover := eq_false_of_ne_true (List.countP_eq_zero.mp hnone other hother)
    rw [Slot.eq_over_of_not_holds hover]
    rfl
  refine ⟨head?_filterMap_of_sole hslot hothers, fun slot' => ?_⟩
  refine head?_filterMap_of_sole
    (List.getElem?_set_self (List.getElem?_eq_some_iff.mp hslot).1) ?_
  rw [List.eraseIdx_set_eq]
  exact hothers

/-- A step of a crew with one slot leaves in hand what is there, unless it is a step of the
consumer that has it in hand. -/
theorem Run.Step.hand_cases (st : Step isShut p r move p' roster) (ord : r.InOrder post o now)
    (size : o.size = 1) (unaborted : move ≠ .expired) :
    (p' = p ∧ r.worker? move = none ∧ (⟨r.post, roster⟩ : Run).hand? = r.hand?) ∨
      ∃ j c c' cmove, move = .consume j cmove ∧ r.roster.slots[j]? = some (.running c) ∧
        c.Step isShut p cmove p' c' ∧ r.hand? = c.stage? ∧
        (⟨r.post, roster⟩ : Run).hand? = c'.stage? := by
  cases st with
  | readied | refused | closed | drained | joined | disposed => exact Or.inl ⟨rfl, rfl, rfl⟩
  | staffed =>
    refine Or.inl ⟨rfl, rfl, congrArg List.head? ?_⟩
    exact List.filterMap_append.trans (List.append_nil _)
  | reaped _ ended =>
    exact Or.inl ⟨rfl, rfl, congrArg List.head? (filterMap_eraseIdx ended rfl)⟩
  | @rested j till pausing =>
    -- The slot that pauses has nothing in hand, and neither has the one that is over.
    refine Or.inl ⟨rfl, rfl, congrArg List.head? ?_⟩
    have hover := List.getElem?_set_self (a := (Slot.over : Slot Consumer))
      (List.getElem?_eq_some_iff.mp pausing).1
    have herase := filterMap_eraseIdx (f := Slot.stage?) hover rfl
    rw [List.eraseIdx_set_eq] at herase
    exact herase.symm.trans (filterMap_eraseIdx pausing rfl)
  | went running st =>
    obtain ⟨hhand, hset⟩ := ord.hand_of_slot size running rfl
    exact Or.inr ⟨_, _, _, _, rfl, running, st, hhand, hset _⟩
  | failed running st exit | retired running st exit =>
    obtain ⟨hhand, hset⟩ := ord.hand_of_slot size running rfl
    refine Or.inr ⟨_, _, _, _, rfl, running, st, hhand, ?_⟩
    rw [Consumer.stage?_of_exit? exit]
    exact hset _
  | expired => exact absurd rfl unaborted

end Crew

/-- What the crew at a place has in hand. -/
def World.hand? (i : Nat) (w : World) : Option (Iteration × Bool) :=
  match w.parties[i]? with
  | some ⟨_, .crew r⟩ => r.hand?
  | _ => none

/-! ### Keeping out -/

/-- Who works at a post takes no request from a store, and sends no response to another. -/
def Work.Post.KeepsOut (q r : Nat) (post : Post) : Prop :=
  post.requests.store ≠ q ∧ post.responses.store ≠ r

/-- A call leaves a store in order, and sends no message to another. -/
def Queue.Call.KeepsOut (q r : Nat) (call : Call) : Prop :=
  (call.handle.store = q → call.request.tends = true) ∧
    (call.handle.store = r → call.request.meter? ≠ some .sent)

/-- An agent takes no request from a store, ends no delivery there, and sends nothing to
another store. -/
def Agent.KeepsOut (q r : Nat) : Agent → Prop
  | .consumer c => c.InShape ∧ c.post.KeepsOut q r ∧ ∀ stage ∈ c.stage?, stage.1.handle.store ≠ q
  | .crew post => post.KeepsOut q r
  | .caller call => call.KeepsOut q r
  | .receiver call | .source call => call.handle.store ≠ q ∧ call.KeepsOut q r
  | .collector _ => True

/-- Who may visit: whoever keeps out, and has not begun to work. -/
def Agent.MayVisit (q r : Nat) : Agent → Prop
  | .consumer c => (∃ post repeats, c = .waiting post repeats) ∧ c.post.KeepsOut q r
  | a => a.KeepsOut q r

instance (q r : Nat) (post : Post) : Decidable (post.KeepsOut q r) :=
  inferInstanceAs (Decidable (_ ∧ _))

instance (q r : Nat) (call : Call) : Decidable (call.KeepsOut q r) :=
  inferInstanceAs (Decidable (_ ∧ _))

instance (q r : Nat) (a : Agent) : Decidable (a.MayVisit q r) :=
  match a with
  | .consumer ⟨post, _, .receiving call⟩ =>
    decidable_of_iff (call = Consumer.receive post ∧ post.KeepsOut q r)
      (by simp [Agent.MayVisit, Consumer.waiting])
  | .consumer ⟨_, _, .working ..⟩ | .consumer ⟨_, _, .ended _⟩ =>
    isFalse (by simp [Agent.MayVisit, Consumer.waiting])
  | .crew post => inferInstanceAs (Decidable (post.KeepsOut q r))
  | .caller call => inferInstanceAs (Decidable (call.KeepsOut q r))
  | .receiver call | .source call =>
    inferInstanceAs (Decidable (call.handle.store ≠ q ∧ call.KeepsOut q r))
  | .collector _ => isTrue trivial

section
variable {q r : Nat}

theorem Agent.MayVisit.keepsOut {a : Agent} (h : a.MayVisit q r) : a.KeepsOut q r := by
  cases a with
  | consumer c =>
    obtain ⟨⟨post, repeats, rfl⟩, hpost⟩ := h
    exact ⟨Consumer.inShape_waiting post repeats, hpost, nofun⟩
  | _ => exact h

/-- Whoever keeps out makes no call that does not. -/
theorem Agent.KeepsOut.call {a : Agent} (h : a.KeepsOut q r) {call : Call}
    (hcall : a.call? = some call) : call.KeepsOut q r := by
  cases a with
  | consumer c =>
    obtain ⟨hshape, ⟨hrequests, hresponses⟩, hstage⟩ := h
    have hcall' : c.call? = some call := hcall
    cases doing : c.activity with
    | receiving call₀ =>
      obtain ⟨hhandle, hrequest⟩ := hshape.errand hcall (by rw [Consumer.duty?, doing])
      rw [Queue.Call.KeepsOut, hhandle, hrequest]
      exact ⟨fun hq => absurd hq hrequests, fun _ hmeter => by cases hmeter⟩
    | working handle d k job =>
      rw [Consumer.call?, doing] at hcall'
      obtain ⟨command, hcommand⟩ := Job.exists_command hcall'
      obtain ⟨hhandle, hrequest⟩ := hshape.errand_of_command doing hcall' hcommand
      have hother := hstage _ (Consumer.stage?_of_working doing)
      rw [Queue.Call.KeepsOut, hhandle, hrequest]
      cases command with
      | send text => exact ⟨fun _ => rfl, fun hr => absurd hr hresponses⟩
      | delete => exact ⟨fun hq => absurd hq hother, fun _ hmeter => by cases hmeter⟩
      | giveBack => exact ⟨fun hq => absurd hq hother, fun _ hmeter => by cases hmeter⟩
    | ended exit =>
      rw [Consumer.call?, doing] at hcall'
      cases hcall'
  | caller call₀ =>
    cases hcall
    exact h
  | receiver call₀ =>
    cases hcall
    exact h.2
  | _ => cases hcall

theorem Agent.lasting_keepsOut : Agent.Lasting (Agent.KeepsOut q r) := by
  have hsame : ∀ {p p' : Plant} {canceled : Bool} {call call' : Call} {move : Queue.CallMove},
      p.stepCall canceled call move = some (p', .going call') →
      call'.handle = call.handle ∧ (call.KeepsOut q r → call'.KeepsOut q r) := by
    intro p p' canceled call call' move made
    obtain ⟨hhandle, hrequest⟩ := Plant.stepCall_same made
    refine ⟨hhandle, fun h => ?_⟩
    rw [Queue.Call.KeepsOut, hhandle, hrequest]
    exact h
  intro p worker before p' after turn hbefore
  cases turn with
  | @worked canceled c c' move p' st =>
    obtain ⟨hshape, hpost, hstage⟩ := hbefore _ List.mem_cons_self
    refine List.forall_mem_singleton.mpr ⟨st.inShape hshape, st.post ▸ hpost, ?_⟩
    rintro ⟨x, isDeleting⟩ hstage'
    rcases st.iteration_cases hstage' with ⟨wasDeleting, hc⟩ | ⟨-, hhandle⟩
    · exact hstage (x, wasDeleting) hc
    · exact hhandle ▸ hpost.1
  | hired post =>
    have hpost : post.KeepsOut q r := hbefore _ List.mem_cons_self
    refine List.forall_mem_cons.mpr ⟨hpost, List.forall_mem_singleton.mpr ?_⟩
    exact ⟨Consumer.inShape_waiting post true, hpost, nofun⟩
  | called made =>
    exact List.forall_mem_singleton.mpr ((hsame made).2 (hbefore _ List.mem_cons_self))
  | awaited made =>
    obtain ⟨hother, hcall⟩ := hbefore _ List.mem_cons_self
    obtain ⟨hhandle, hkeeps⟩ := hsame made
    exact List.forall_mem_singleton.mpr ⟨hhandle ▸ hother, hkeeps hcall⟩
  | @received _ call _ _ reply =>
    obtain ⟨hother, -⟩ := hbefore _ List.mem_cons_self
    intro a ha
    obtain ⟨deletion, hdeletion, rfl⟩ := List.mem_map.mp ha
    -- Whoever receives from another store deletes what it gets there.
    cases reply with
    | done => cases hdeletion
    | batch ds =>
      obtain ⟨d, -, rfl⟩ := List.mem_map.mp hdeletion
      exact ⟨fun hq => absurd hq hother, fun _ => nofun⟩
  | resumed call =>
    have hcall := hbefore _ List.mem_cons_self
    exact List.forall_mem_cons.mpr ⟨hcall, List.forall_mem_singleton.mpr hcall⟩
  | _ => exact List.forall_mem_nil _

end

/-! ### What leaves the stores alone -/

/-- The message that the store at a position gains on the way from one plant to another. -/
def Plant.gained? (i : Nat) (p p' : Plant) : Option (String × String) :=
  p.stores[i]?.bind fun s => p'.stores[i]?.bind fun s' => s.gained? s'

namespace Plant
variable {q r : Nat} {p p' p'' : Plant}

theorem gained?_of_stores {i : Nat} {s s' : Store} (hs : p.stores[i]? = some s)
    (hs' : p'.stores[i]? = some s') : p.gained? i p' = s.gained? s' := by
  rw [gained?, hs, hs', Option.bind_some, Option.bind_some]

theorem gained?_congr {i : Nat} (h : p''.stores[i]? = p'.stores[i]?) :
    p.gained? i p'' = p.gained? i p' := by
  rw [gained?, gained?, h]

theorem gained?_self (i : Nat) (h : p'.stores[i]? = p.stores[i]?) : p.gained? i p' = none := by
  rw [gained?, h]
  cases p.stores[i]? with
  | none => rfl
  | some s => exact Queue.Store.gained?_eq_none rfl

/-- A store keeps its line, and another one gains nothing. -/
structure Quiet (q r : Nat) (p p' : Plant) : Prop where
  kept : ∀ s, p.stores[q]? = some s → s.held.length ≤ 1 →
    ∃ s', p'.stores[q]? = some s' ∧ s.Kept s'
  ungained : p.gained? r p' = none

theorem Quiet.of_stores (h : p'.stores = p.stores) : Quiet q r p p' where
  kept s hs _ := ⟨s, h ▸ hs, .refl s⟩
  ungained := gained?_self r (by rw [h])

theorem Quiet.trans_stores (quiet : Quiet q r p p') (h : p''.stores = p'.stores) :
    Quiet q r p p'' where
  kept s hs single := by
    rw [h]
    exact quiet.kept s hs single
  ungained := (gained?_congr (by rw [h])).trans quiet.ungained

/-- What keeps out of the stores leaves them alone. -/
theorem Quiet.of_touched (touched : ∀ i, Touched i (fun deed => ∀ request,
      deed = .attempt request → (i = q → request.tends = true) ∧
        (i = r → request.meter? ≠ some .sent)) p p') : Quiet q r p p' where
  kept s hs single := by
    obtain ⟨s', hs', hcase⟩ := touched q s hs
    refine ⟨s', hs', ?_⟩
    rcases hcase with rfl | ⟨deed, outcome, hdeed, st⟩
    · exact .refl s'
    · exact st.kept single fun request _ hrequest _ => (hdeed request hrequest).1 rfl
  ungained := by
    cases hs : p.stores[r]? with
    | none => rw [gained?, hs, Option.bind_none]
    | some s =>
      obtain ⟨s', hs', hcase⟩ := touched r s hs
      rw [gained?_of_stores hs hs']
      rcases hcase with rfl | ⟨deed, outcome, hdeed, st⟩
      · exact Queue.Store.gained?_eq_none rfl
      · exact st.gained?_eq_none fun content _ hsend => absurd rfl ((hdeed _ hsend).2 rfl)

/-- A call that does not succeed with a step leaves the stores alone. -/
theorem Quiet.of_stepCall {canceled : Bool} {call : Call} {move : Queue.CallMove}
    {progress : Queue.Progress} (made : p.stepCall canceled call move = some (p', progress))
    (undone : progress.isDone = false) : Quiet q r p p' := by
  obtain ⟨s, s', hs, st, rfl⟩ := stepCall_cases made
  have hother : ∀ {i}, call.handle.store ≠ i →
      (p.withStore call.handle.store s').stores[i]? = p.stores[i]? :=
    fun hi => List.getElem?_set_ne hi
  constructor
  · intro s₀ hs₀ single
    by_cases hq : call.handle.store = q
    · subst hq
      obtain rfl := Option.some.inj (hs.symm.trans hs₀)
      exact ⟨s', stores_withStore hs s', st.kept undone single⟩
    · exact ⟨s₀, (hother hq).trans hs₀, .refl s₀⟩
  · by_cases hr : call.handle.store = r
    · subst hr
      rw [gained?_of_stores hs (stores_withStore hs s')]
      exact st.gained?_eq_none undone
    · exact gained?_self r (hother hr)

end Plant

/-! ### What may happen around a crew that is alone -/

/-- A move that cuts work short: a handler crashes, or all consumers are aborted. -/
def PartyMove.cutsShort : PartyMove → Bool
  | .crew (.consume _ (.crash _)) => true
  | .crew .expired => true
  | _ => false

/-- What may happen around a crew that has two stores to itself: whoever else joins keeps out, and
the work of the crew is not cut short. -/
def Crew.Sole (i : Nat) (post : Post) (o : Options) (w : World) : Event → Prop
  | .join party =>
    if w.parties.length = i then party.task = .crew (.create post o)
    else ∀ a ∈ party.agents, a.MayVisit post.requests.store post.responses.store
  | .assign post' handle _ =>
    w.parties.length ≠ i ∧ post'.KeepsOut post.requests.store post.responses.store ∧
      handle.store ≠ post.requests.store
  | .move j move => j = i → move.cutsShort = false
  | .drop j => j ≠ i
  | _ => True

instance (i : Nat) (post : Post) (o : Crew.Options) (w : World) (event : Event) :
    Decidable (Crew.Sole i post o w event) :=
  match event with
  | .join party =>
    inferInstanceAs (Decidable (if w.parties.length = i then party.task = .crew (.create post o)
      else ∀ a ∈ party.agents, a.MayVisit post.requests.store post.responses.store))
  | .assign post' handle _ =>
    inferInstanceAs (Decidable (w.parties.length ≠ i ∧
      post'.KeepsOut post.requests.store post.responses.store ∧
      handle.store ≠ post.requests.store))
  | .move j move => inferInstanceAs (Decidable (j = i → move.cutsShort = false))
  | .drop j => inferInstanceAs (Decidable (j ≠ i))
  | .advance _ | .cancel _ | .inject .. | .observe _ | .keeper _ | .keep .. | .stop _
  | .leave _ | .board => isTrue trivial

section
variable {i : Nat} {post : Post} {o : Crew.Options} {w w' : World} {event : Event}
  {stores : List Store} {past : List Occurrence} {q r : Nat}

theorem Crew.Sole.joinsElsewhere (allowed : Crew.Sole i post o w event) :
    event.JoinsElsewhere i (Agent.KeepsOut post.requests.store post.responses.store) w := by
  cases event with
  | join party =>
    intro hplace a ha
    have hvisit : if w.parties.length = i then _ else _ := allowed
    rw [if_neg hplace] at hvisit
    exact (hvisit a ha).keepsOut
  | assign post' handle d =>
    refine fun _ => ⟨rfl, allowed.2.1, ?_⟩
    rintro _ ⟨⟩
    exact allowed.2.2
  | _ => trivial

/-- Everybody else keeps out in every run. -/
theorem Run.keepOut (run : Run stores (Crew.Sole i post o) past w) :
    w.Elsewhere i (Agent.KeepsOut post.requests.store post.responses.store) := by
  induction run with
  | start => exact fun j party hparty _ => by cases hparty
  | step event _ allowed happens ih =>
    exact World.step_elsewhere Agent.lasting_keepsOut ih allowed.joinsElsewhere happens

/-- An event that is not about the party at a place leaves the stores alone, if everybody else
keeps out. -/
theorem World.step_quiet (e : w.Elsewhere i (Agent.KeepsOut q r)) (ko : w.plant.KeepersOrderly)
    (h : w.step event = some w') (no_move : ∀ move, event ≠ .move i move)
    (no_drop : event ≠ .drop i) : w.plant.Quiet q r w'.plant := by
  refine .of_touched fun j => ?_
  rcases World.step_outside e h no_move no_drop with
    ⟨worker, before, after, hbefore, turn⟩ | ⟨hmove, hdrop⟩
  · refine (turn.touched j).mono fun deed hdeed request hrequest => ?_
    obtain ⟨a, ha, call, hcall, rfl, rfl⟩ := hdeed
    cases hrequest
    exact (hbefore a ha).call hcall
  · refine (World.step_upkeep ko h hmove hdrop j).mono ?_
    rintro _ hdeed request rfl
    obtain ⟨d, rfl⟩ := hdeed
    exact ⟨fun _ => rfl, fun _ => nofun⟩

/-- Whoever makes a move elsewhere is of the kind of those who are there. -/
theorem World.Elsewhere.worker {P : Agent → Prop} (e : w.Elsewhere i P)
    (no_move : ∀ move, event ≠ .move i move) {c : Consumer} {move : ConsumerMove}
    (hworker : w.worker? event = some (c, move)) : P (.consumer c) := by
  cases event with
  | move j made =>
    obtain ⟨party, hj, hparty⟩ := Option.bind_eq_some_iff.mp hworker
    exact e j party hj (fun hji => no_move made (by rw [hji])) _ (Party.mem_of_worker? hparty)
  | _ => cases hworker

/-! ### The crew at its place -/

theorem Party.crew_step {p p' : Plant} {isCanceled : Bool} {r : Crew.Run} {party' : Party}
    {move : PartyMove} (h : Party.step p ⟨isCanceled, .crew r⟩ move = some (p', party')) :
    ∃ cmove roster, move = .crew cmove ∧ r.Step isCanceled p cmove p' roster ∧
      party' = ⟨isCanceled, .crew ⟨r.post, roster⟩⟩ := by
  cases move with
  | crew cmove =>
    simp only [Party.step, bind, Option.bind_eq_some_iff] at h
    obtain ⟨⟨p₁, r₁⟩, hstep, heq⟩ := h
    cases heq
    obtain ⟨roster, st, rfl⟩ := Crew.Run.step_cases hstep
    exact ⟨cmove, roster, rfl, st, rfl⟩
  | _ => cases h

/-- What an event may come to for the crew that is alone: it has not joined yet, or it is there
and its books are in order. -/
inductive World.SoleStep (w w' : World) (i : Nat) (post : Post) (o : Crew.Options) :
    Event → Prop
  /-- The event is not about the crew. -/
  | outside {event : Event} (same : w'.parties[i]? = w.parties[i]?)
      (no_move : ∀ move, event ≠ .move i move) (no_drop : event ≠ .drop i) :
      SoleStep w w' i post o event
  /-- The crew joins. -/
  | joined {isCanceled : Bool} (absent : w.parties[i]? = none)
      (there : w'.parties[i]? = some ⟨isCanceled, .crew (.create post o)⟩)
      (same : w'.plant = w.plant) :
      SoleStep w w' i post o (.join ⟨isCanceled, .crew (.create post o)⟩)
  /-- Shutdown is asked for. -/
  | canceled {isCanceled : Bool} {r : Crew.Run}
      (there : w.parties[i]? = some ⟨isCanceled, .crew r⟩)
      (there' : w'.parties[i]? = some ⟨true, .crew r⟩) (same : w'.plant = w.plant) :
      SoleStep w w' i post o (.cancel i)
  /-- The crew makes a step. -/
  | moved {isCanceled : Bool} {r : Crew.Run} {move : Crew.Move} {roster : Crew.Roster Consumer}
      (there : w.parties[i]? = some ⟨isCanceled, .crew r⟩)
      (there' : w'.parties[i]? = some ⟨isCanceled, .crew ⟨r.post, roster⟩⟩)
      (whole : (PartyMove.crew move).cutsShort = false)
      (st : r.Step isCanceled w.plant move w'.plant roster) :
      SoleStep w w' i post o (.move i (.crew move))

/-- Whatever happens, it comes to one of these for the crew. -/
theorem World.step_sole (allowed : Crew.Sole i post o w event) (h : w.step event = some w')
    (crewed : ∀ party, w.parties[i]? = some party → ∃ r, party.task = .crew r) :
    World.SoleStep w w' i post o event := by
  have hstep := World.step_party h i
  generalize hbefore : w.parties[i]? = before at hstep
  generalize hafter : w'.parties[i]? = after at hstep
  cases hstep with
  | absent =>
    refine .outside (hafter.trans hbefore.symm) (fun move => ?_) ?_
    · rintro rfl
      simp only [step, hbefore, bind, Option.bind_none] at h
      cases h
    · rintro rfl
      simp only [step, hbefore, bind, Option.bind_none] at h
      cases h
  | @joined party last same =>
    obtain ⟨isCanceled, task⟩ := party
    have hnew : if w.parties.length = i then _ else _ := allowed
    rw [if_pos last] at hnew
    obtain rfl : task = .crew (.create post o) := hnew
    exact .joined hbefore hafter same
  | assigned last => exact absurd last allowed.1
  | stayed no_cancel no_move no_drop =>
    exact .outside (hafter.trans hbefore.symm) no_move no_drop
  | canceled same =>
    obtain ⟨r, hcrew⟩ := crewed _ hbefore
    obtain rfl : _ = Task.crew r := hcrew
    exact .canceled hbefore hafter same
  | @moved party _ _ made =>
    obtain ⟨r, hcrew⟩ := crewed _ hbefore
    obtain ⟨isCanceled, task⟩ := party
    obtain rfl : task = .crew r := hcrew
    obtain ⟨cmove, roster, rfl, st, rfl⟩ := Party.crew_step made
    exact .moved hbefore hafter (allowed rfl) st
  | dropped => exact absurd rfl allowed

/-- The books of the crew are in order in every run. -/
theorem Run.sole_inOrder (run : Run stores (Crew.Sole i post o) past w) {party : Party}
    (there : w.parties[i]? = some party) :
    ∃ r, party.task = .crew r ∧ r.InOrder post o w.plant.now := by
  induction run generalizing party with
  | start => cases there
  | step event before allowed happens ih =>
    have crewed := fun party (hparty : _ = some party) =>
      (ih hparty).imp fun _ h => h.1
    cases World.step_sole allowed happens crewed with
    | outside same =>
      obtain ⟨r, hcrew, ord⟩ := ih (same.symm.trans there)
      exact ⟨r, hcrew, ord.later (World.now_le_step happens)⟩
    | joined _ there' =>
      cases there.symm.trans there'
      exact ⟨_, rfl, Crew.Run.inOrder_create post o _⟩
    | canceled there₀ there' same =>
      cases there.symm.trans there'
      obtain ⟨r, hcrew, ord⟩ := ih there₀
      cases hcrew
      exact ⟨_, rfl, by rw [same]; exact ord⟩
    | moved there₀ there' _ st =>
      cases there.symm.trans there'
      obtain ⟨r, hcrew, ord⟩ := ih there₀
      cases hcrew
      exact ⟨_, rfl, st.inOrder ord⟩

end

end Leasework
