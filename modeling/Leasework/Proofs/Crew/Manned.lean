import Leasework.Proofs.Crew.Order

/-!
# `Leasework.Proofs.Crew.Manned`: a crew in the world

`Crew.Manned` says what the surroundings of a crew are held to. One crew joins at a place, and
the board that it joins with is its own: nobody else works at a post with that board. Everything
else may happen in any order: shutdown, time that passes, what the queues and the keepers do,
the moves of the crew itself and of everybody else.

`World.CrewStep` says what an event may come to for the crew, and `Run.posted` that in every run
its books are in order and its board counts exactly its consumers that are at work.
-/

set_option autoImplicit false

namespace Leasework

open Work (Consumer ConsumerMove)

/-! ### The board of a crew -/

namespace Crew.Run
variable {isShut : Bool} {p p' : Plant} {r : Run} {move : Move} {roster : Roster Consumer}
  {post : Work.Post} {o : Options}

/-- A consumer makes a step in its slot, and the board changes as the slot becomes busy or
idle. -/
theorem inFlight?_set {i : Nat} {c c' : Consumer} {cmove : ConsumerMove} {slot : Slot Consumer}
    (running : r.roster.slots[i]? = some (.running c)) (st : c.Step isShut p cmove p' c')
    (hpost : c.post = post) (hslot : slot.isBusy = c'.isAtWork)
    (hn : p.inFlight? post.board = some (r.roster.slots.countP Slot.isBusy)) :
    p'.inFlight? post.board = some ((r.roster.slots.set i slot).countP Slot.isBusy) := by
  subst hpost
  rw [countP_of_getElem? _ running] at hn
  rw [countP_set_of_getElem? _ running, hslot]
  exact st.inFlight? hn

/-- The board of a crew counts its busy slots after every step as before. -/
theorem Step.inFlight? (st : Step isShut p r move p' roster) (ord : r.InOrder post o p.now)
    (hn : p.inFlight? post.board = some (r.roster.slots.countP Slot.isBusy)) :
    p'.inFlight? post.board = some (roster.slots.countP Slot.isBusy) := by
  have hpost : ∀ {i : Nat} {c : Consumer}, r.roster.slots[i]? = some (.running c) →
      c.post = post := fun running =>
    (ord.consumers _ (List.mem_of_getElem? running)).1.trans ord.post
  cases st with
  | staffed =>
    rw [hn, List.countP_append]
    rfl
  | reaped _ ended =>
    rw [hn, countP_of_getElem? _ ended]
    rfl
  | went running st => exact inFlight?_set running st (hpost running) rfl hn
  | failed running st exit =>
    exact inFlight?_set running st (hpost running) (Consumer.isAtWork_of_exit? exit).symm hn
  | retired running st exit =>
    exact inFlight?_set running st (hpost running) (Consumer.isAtWork_of_exit? exit).symm hn
  | rested pausing =>
    show p.inFlight? _ = some ((r.roster.slots.set _ .over).countP Slot.isBusy)
    rw [hn, countP_of_getElem? _ pausing, countP_set_of_getElem? _ pausing]
    rfl
  | expired =>
    -- Every busy consumer is dropped, and takes its request off the board.
    rw [r.roster.countP_abortAll Slot.isBusy rfl]
    refine Consumer.inFlight?_foldl_abandon (fun c hc => ?_) ?_
    · have hrunning := ord.consumers c (Roster.mem_consumers.mp hc)
      rw [hrunning.1, ord.post]
    · rw [hn, Nat.zero_add, Roster.countP_consumers]
  | _ => exact hn

end Crew.Run

/-! ### What may happen around a crew -/

/-- The crew that a task is about. -/
def Task.crew? : Task → Option Crew.Run
  | .crew r => some r
  | _ => none

theorem Task.crew?_eq_some {task : Task} {r : Crew.Run} (h : r ∈ task.crew?) :
    task = .crew r := by
  cases task with
  | crew r' =>
    cases h
    rfl
  | _ => cases h

/-- Whether a task is that of a crew with a post and options that has not started yet. -/
instance decidableNewCrew (post : Work.Post) (o : Crew.Options) (task : Task) :
    Decidable (task = .crew (.create post o)) :=
  match task with
  | .crew ⟨post', ⟨size, drainTime, pause, .starting, permits, []⟩⟩ =>
    decidable_of_iff
      (post' = post ∧ size = o.size ∧ drainTime = o.drainTime.toNanos ∧
        pause = o.pause.toNanos ∧ permits = .full o.size)
      (by simp [Crew.Run.create, Crew.Roster.create])
  | .crew ⟨_, ⟨_, _, _, _, _, _ :: _⟩⟩ =>
    isFalse (by simp [Crew.Run.create, Crew.Roster.create])
  | .crew ⟨_, ⟨_, _, _, .staffing, _, []⟩⟩
  | .crew ⟨_, ⟨_, _, _, .draining _, _, []⟩⟩
  | .crew ⟨_, ⟨_, _, _, .joining, _, []⟩⟩
  | .crew ⟨_, ⟨_, _, _, .disposing, _, []⟩⟩
  | .crew ⟨_, ⟨_, _, _, .ended _, _, []⟩⟩ =>
    isFalse (by simp [Crew.Run.create, Crew.Roster.create])
  | .call _ | .called _ _ | .collecting _ | .collected _ _ | .consumer _ | .bench _
  | .measured _ | .gone => isFalse nofun

/-- What may happen around a crew: it joins at a place with a board on which nothing is being
worked on, and whoever else joins keeps off that board. -/
def Crew.Manned (i : Nat) (post : Work.Post) (o : Options) (w : World) : Event → Prop
  | .join party =>
    if w.parties.length = i then
      party.task = .crew (.create post o) ∧ w.plant.inFlight? post.board = some 0
    else ∀ a ∈ party.agents, a.KeepsOff post.board
  | .assign post' _ _ => w.parties.length ≠ i ∧ post'.board ≠ post.board
  | _ => True

instance (i : Nat) (post : Work.Post) (o : Crew.Options) (w : World) (event : Event) :
    Decidable (Crew.Manned i post o w event) :=
  match event with
  | .join party =>
    inferInstanceAs (Decidable (if w.parties.length = i then
      party.task = .crew (.create post o) ∧ w.plant.inFlight? post.board = some 0
      else ∀ a ∈ party.agents, a.KeepsOff post.board))
  | .assign post' _ _ =>
    inferInstanceAs (Decidable (w.parties.length ≠ i ∧ post'.board ≠ post.board))
  | .advance _ | .cancel _ | .inject .. | .observe _ | .keeper _ | .keep .. | .stop _
  | .leave _ | .board | .move .. | .drop _ => isTrue trivial

section
variable {i : Nat} {post : Work.Post} {o : Crew.Options} {w w' : World} {event : Event}

/-- Whoever may join keeps off the board of the crew. -/
theorem Crew.Manned.joinsElsewhere (allowed : Crew.Manned i post o w event) :
    event.JoinsElsewhere i (Agent.KeepsOff post.board) w := by
  cases event with
  | join party =>
    intro hplace
    have hoff : if w.parties.length = i then _ else _ := allowed
    rwa [if_neg hplace] at hoff
  | assign post' =>
    rintro - _ ⟨⟩
    exact allowed.2
  | _ => trivial

/-- What an event may come to for the crew at a place: whether it is canceled afterwards, and
what becomes of it. -/
inductive World.CrewStep (w w' : World) (i : Nat) (post : Work.Post) (o : Crew.Options) :
    Event → Bool → Crew.Run → Prop
  /-- The crew joins. -/
  | joined {isCanceled : Bool} (absent : w.parties[i]? = none)
      (clear : w.plant.inFlight? post.board = some 0) (same : w'.plant = w.plant) :
      CrewStep w w' i post o (.join ⟨isCanceled, .crew (.create post o)⟩) isCanceled
        (.create post o)
  /-- The event is not about the crew. -/
  | stayed {event : Event} {isCanceled : Bool} {r : Crew.Run}
      (there : w.parties[i]? = some ⟨isCanceled, .crew r⟩)
      (no_move : ∀ move, event ≠ .move i move)
      (inFlight : ∀ n, w.plant.inFlight? post.board = some n →
        w'.plant.inFlight? post.board = some n) :
      CrewStep w w' i post o event isCanceled r
  /-- Shutdown is asked for. -/
  | canceled {isCanceled : Bool} {r : Crew.Run}
      (there : w.parties[i]? = some ⟨isCanceled, .crew r⟩) (same : w'.plant = w.plant) :
      CrewStep w w' i post o (.cancel i) true r
  /-- The crew makes a step. -/
  | moved {isCanceled : Bool} {r : Crew.Run} {move : Crew.Move}
      {roster : Crew.Roster Consumer} (there : w.parties[i]? = some ⟨isCanceled, .crew r⟩)
      (st : r.Step isCanceled w.plant move w'.plant roster) :
      CrewStep w w' i post o (.move i (.crew move)) isCanceled ⟨r.post, roster⟩

/-- A party that has made a step and is a crew has made a step of a crew. -/
theorem Party.step_crew {p p' : Plant} {party : Party} {move : PartyMove} {isCanceled : Bool}
    {r' : Crew.Run} (h : party.step p move = some (p', ⟨isCanceled, .crew r'⟩)) :
    ∃ r cmove roster, party = ⟨isCanceled, .crew r⟩ ∧ move = .crew cmove ∧
      r.Step isCanceled p cmove p' roster ∧ r' = ⟨r.post, roster⟩ := by
  obtain ⟨isCanceled', task⟩ := party
  cases move with
  | crew cmove =>
    cases task with
    | crew r =>
      simp only [Party.step, bind, Option.bind_eq_some_iff] at h
      obtain ⟨⟨p₁, r₁⟩, hstep, heq⟩ := h
      cases heq
      obtain ⟨roster, st, rfl⟩ := Crew.Run.step_cases hstep
      exact ⟨r, cmove, roster, rfl, rfl, st, rfl⟩
    | _ => cases h
  | call cmove =>
    cases task with
    | call call =>
      simp only [Party.step, bind, Option.bind_eq_some_iff] at h
      obtain ⟨⟨p₁, progress⟩, -, heq⟩ := h
      cases progress <;> cases heq
    | _ => cases h
  | collect =>
    cases task with
    | collecting keeper =>
      simp only [Party.step, bind, Option.bind_eq_some_iff] at h
      obtain ⟨_, -, heq⟩ := h
      cases heq
    | _ => cases h
  | consumer cmove =>
    cases task with
    | consumer c =>
      simp only [Party.step, bind, Option.bind_eq_some_iff] at h
      obtain ⟨_, -, heq⟩ := h
      cases heq
    | _ => cases h
  | bench cmove =>
    cases task with
    | bench run =>
      simp only [Party.step, bind, Option.bind_eq_some_iff] at h
      obtain ⟨_, -, heq⟩ := h
      cases heq
    | _ => cases h
  | measure =>
    cases task with
    | bench run =>
      simp only [Party.step, bind, Option.bind_eq_some_iff] at h
      obtain ⟨_, -, heq⟩ := h
      cases heq
    | _ => cases h

/-- Whatever happens, it comes to one of these for the crew. -/
theorem World.step_crew (e : w.Elsewhere i (Agent.KeepsOff post.board))
    (allowed : Crew.Manned i post o w event) (h : w.step event = some w') {isCanceled : Bool}
    {r : Crew.Run} (hcrew : w'.parties[i]? = some ⟨isCanceled, .crew r⟩) :
    World.CrewStep w w' i post o event isCanceled r := by
  have hstep := World.step_party h i
  rw [hcrew] at hstep
  generalize hbefore : w.parties[i]? = before at hstep
  cases hstep with
  | joined last same =>
    obtain ⟨htask, hclear⟩ :=
      if_pos last ▸ (show if w.parties.length = i then _ else _ from allowed)
    cases htask
    exact .joined hbefore hclear same
  | assigned last => exact absurd last allowed.1
  | stayed no_cancel no_move no_drop =>
    refine .stayed hbefore no_move fun n hn => ?_
    refine World.step_inFlight? e h no_move no_drop ?_ hn
    rintro post' handle d rfl
    exact allowed.2
  | canceled same => exact .canceled hbefore same
  | moved made =>
    obtain ⟨r₀, cmove, roster, rfl, rfl, st, rfl⟩ := Party.step_crew made
    exact .moved hbefore st

end

/-! ### A crew through a run -/

/-- Where a crew stands: its books are in order, and its board counts its consumers that are at
work. -/
structure Crew.Posted (post : Work.Post) (o : Options) (p : Plant) (r : Run) : Prop where
  order : r.InOrder post o p.now
  board : p.inFlight? post.board = some (r.roster.slots.countP Slot.isBusy)

section
variable {stores : List Queue.Store} {i : Nat} {post : Work.Post} {o : Crew.Options}
  {past : List Occurrence} {w w' : World} {event : Event} {isCanceled : Bool} {r : Crew.Run}

/-- What may happen under one rule happens under a weaker one. -/
theorem Run.mono {may may' : World → Event → Prop} (run : Run stores may past w)
    (h : ∀ w event, may w event → may' w event) : Run stores may' past w := by
  induction run with
  | start => exact .start
  | step event _ allowed happens ih => exact .step event ih (h _ _ allowed) happens

/-- Everybody else keeps off the board of the crew. -/
theorem Run.keepOff (run : Run stores (Crew.Manned i post o) past w) :
    w.Elsewhere i (Agent.KeepsOff post.board) := by
  induction run with
  | start => exact fun j party hparty _ => by cases hparty
  | step event _ allowed happens ih =>
    exact World.step_elsewhere Agent.lasting_keepsOff ih allowed.joinsElsewhere happens

/-- What an event comes to for a crew keeps it where it stands. -/
theorem World.CrewStep.posted (st : World.CrewStep w w' i post o event isCanceled r)
    (happens : w.step event = some w')
    (hbefore : ∀ isCanceled r, w.parties[i]? = some ⟨isCanceled, .crew r⟩ →
      Crew.Posted post o w.plant r) : Crew.Posted post o w'.plant r := by
  cases st with
  | joined _ clear same =>
    rw [same]
    exact ⟨Crew.Run.inOrder_create post o _, clear⟩
  | stayed there _ inFlight =>
    have hposted := hbefore _ _ there
    exact ⟨hposted.order.later (World.now_le_step happens), inFlight _ hposted.board⟩
  | canceled there same =>
    rw [same]
    exact hbefore _ _ there
  | moved there st =>
    have hposted := hbefore _ _ there
    exact ⟨st.inOrder hposted.order, st.inFlight? hposted.order hposted.board⟩

/-- A crew stands where it should in every run. -/
theorem Run.posted (run : Run stores (Crew.Manned i post o) past w)
    (hcrew : w.parties[i]? = some ⟨isCanceled, .crew r⟩) : Crew.Posted post o w.plant r := by
  induction run generalizing isCanceled r with
  | start => cases hcrew
  | step event before allowed happens ih =>
    exact (World.step_crew before.keepOff allowed happens hcrew).posted happens fun _ _ => ih

end

end Leasework
