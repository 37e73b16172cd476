import Leasework.Proofs.Crew.Governed
import Leasework.Proofs.Work.Audit

/-!
# `Leasework.Proofs.Crew.Pauses`: failing consumers cannot spin

A slot whose consumer has failed pauses, and keeps its permit till the pause is over. So however
often the queues and the handler fail, the counter of failures on the board of a crew grows by at
most one for every permit in a window of time as long as a pause (`Run.paced`).

Every failure in the window is charged to a slot. `Crew.Run.Charged` compares the counter with what
it said at an earlier moment: it has grown by no more than there are slots that pause at least one
pause longer than that moment. A step of the crew that raises the counter adds such a slot
(`Crew.Run.Step.charged`), and a pause that is over is too old to be counted. Slots that run and
permits that are free are not charged, so they come on top.
-/

set_option autoImplicit false

namespace Leasework

open Work (Consumer ConsumerMove)

/-! ### The counter of failures -/

namespace Plant
variable {p p' : Plant} {b i n : Nat}

/-- How many failures a board has counted. -/
def failed (p : Plant) (b : Nat) : Nat := (p.board b).failed

/-- A change to one board adds no more to the counter than it does there. -/
theorem failed_le_of_modify {change : Work.Board → Work.Board}
    (h : p'.boards = p.boards.modify i change)
    (hchange : ∀ board, (change board).failed ≤ board.failed + n) :
    p'.failed b ≤ p.failed b + n := by
  unfold failed board
  rw [h]
  by_cases hb : i = b
  · rw [hb, List.getElem?_modify_eq]
    cases p.boards[b]? with
    | none => exact Nat.le_add_right _ _
    | some board => exact hchange board
  · rw [List.getElem?_modify_ne _ _ hb]
    exact Nat.le_add_right _ _

end Plant

section
variable {p p' : Plant} {b : Nat}

/-- A step of a consumer counts one failure at most, and only if it ends the consumer with it. -/
theorem Work.Consumer.Step.failed_le {canceled : Bool} {c c' : Consumer} {move : ConsumerMove}
    (st : c.Step canceled p move p' c') :
    p'.failed b ≤ p.failed b + if c'.hasFailed then 1 else 0 := by
  refine Plant.failed_le_of_modify st.boards fun board => Nat.add_le_add_left ?_ board.failed
  cases c.repeats with
  | true => exact Nat.le_refl _
  | false => exact Nat.zero_le _

theorem Work.Consumer.hasFailed_of_exit? {c : Consumer}
    (h : ∀ f, c.exit? ≠ some (.finished (.error f))) : c.hasFailed = false := by
  unfold hasFailed
  split
  · exact absurd ‹_› (h _)
  · rfl

/-- A turn of agents that keep off a board leaves its counter of failures. -/
theorem Agent.Turn.failed {worker : Option (Consumer × ConsumerMove)} {before after : List Agent}
    (t : Agent.Turn p worker before p' after) (hbefore : ∀ a ∈ before, a.KeepsOff b) :
    p'.failed b = p.failed b := by
  have hstep : ∀ {canceled : Bool} {c c' : Consumer} {move : ConsumerMove},
      (Agent.consumer c).KeepsOff b → c.Step canceled p move p' c' →
      p'.failed b = p.failed b := by
    intro canceled c c' move hoff st
    have hne : c.post.board ≠ b := hoff _ rfl
    rw [Plant.failed, Plant.board_modify st.boards fun hb => absurd hb hne, if_neg hne]
    rfl
  cases worker with
  | none =>
    have hboard := (t.board fun a ha post hpost hb => absurd hb (hbefore a ha post hpost)).2
    rw [Plant.failed, hboard]
    rfl
  | some worker =>
    cases t with
    | worked st => exact hstep (hbefore _ (List.mem_singleton.mpr rfl)) st
    | retired st => exact hstep (hbefore _ (List.mem_singleton.mpr rfl)) st

/-- An event that is not about a crew leaves its counter of failures. -/
theorem World.step_failed {w w' : World} {event : Event} {i : Nat} {post : Work.Post}
    {o : Crew.Options} (e : w.Elsewhere i (Agent.KeepsOff post.board))
    (allowed : Crew.Manned i post o w event) (h : w.step event = some w')
    (no_move : ∀ move, event ≠ .move i move) (no_drop : event ≠ .drop i) :
    w'.plant.failed post.board = w.plant.failed post.board := by
  have hsame : ∀ {p : Plant}, p.boards = w.plant.boards →
      p.failed post.board = w.plant.failed post.board :=
    fun hboards => congrArg Work.Board.failed (Plant.board_of_boards hboards)
  rcases World.step_outside e h no_move no_drop with ⟨_, _, _, hbefore, turn⟩ | ⟨hmove, hdrop⟩
  · exact turn.failed hbefore
  · cases World.step_cases h with
    | kept made => exact hsame (Plant.boards_stepKeeper made)
    | boarded => exact congrArg Work.Board.failed Plant.board_addBoard
    | @assigned post' handle d =>
      have hne : post'.board ≠ post.board := allowed.2
      have hboards : (Consumer.given w.plant post' handle d).1.boards
        = w.plant.boards.modify post'.board .begin := rfl
      show Plant.failed (Consumer.given w.plant post' handle d).1 _ = _
      rw [Plant.failed, Plant.board_modify hboards fun hb => absurd hb hne, if_neg hne]
      rfl
    | moved => exact absurd rfl (hmove _ _)
    | dropped => exact absurd rfl (hdrop _)
    | _ => exact hsame rfl

end

/-! ### Failures and slots that pause -/

namespace Crew

/-- Whether a slot pauses till a moment or longer. -/
def Slot.isPausingTo (moment : Nat) : Slot Consumer → Bool
  | .pausing till => moment ≤ till
  | _ => false

/-- A slot that holds a permit pauses that long, or does not run. -/
theorem countP_isPausingTo_le (moment : Nat) (slots : List (Slot Consumer)) :
    slots.countP (Slot.isPausingTo moment) + slots.countP Slot.isRunning
      ≤ slots.countP Slot.holds := by
  rw [countP_holds, Nat.add_comm]
  refine Nat.add_le_add_left (List.countP_mono_left fun slot _ hslot => ?_) _
  cases slot with
  | pausing till => rfl
  | _ => cases hslot

namespace Run

/-- Shutdown has not been noticed: the crew is not draining. -/
def IsOpen (r : Run) : Prop := ∀ till, r.roster.phase ≠ .draining till

/-- Since a moment at which the counter of failures stood at `n`, it has grown by no more than
there are slots that pause at least one pause longer than that moment. After that, nothing is
said. -/
def Charged (post : Work.Post) (o : Options) (moment n : Nat) (p : Plant) (r : Run) : Prop :=
  p.now < moment + o.pause.toNanos →
    p.failed post.board
      ≤ n + r.roster.slots.countP (Slot.isPausingTo (moment + o.pause.toNanos))

variable {p p' : Plant} {r : Run} {move : Move} {roster : Roster Consumer} {post : Work.Post}
  {o : Options} {moment n : Nat}

/-- Without shutdown a crew does not begin to drain. -/
theorem Step.isOpen (st : Step false p r move p' roster) (opened : r.IsOpen) :
    (⟨r.post, roster⟩ : Run).IsOpen := by
  cases st with
  | readied | refused | drained | expired | joined | disposed => exact nofun
  | closed _ asked => cases asked
  | _ => exact opened

/-- A consumer makes a step in its slot. If it counts a failure, it leaves a slot that is
charged. -/
theorem Charged.set {i : Nat} {c c' : Consumer} {cmove : ConsumerMove} {slot : Slot Consumer}
    (charged : r.Charged post o moment n p) (running : r.roster.slots[i]? = some (.running c))
    (st : c.Step false p cmove p' c')
    (hslot : c'.hasFailed = true → slot.isPausingTo (moment + o.pause.toNanos) = true) :
    (⟨r.post, { r.roster with slots := r.roster.slots.set i slot }⟩ : Run).Charged
      post o moment n p' := by
  intro hnow
  have hbefore := charged (st.act.now ▸ hnow)
  have hfailed := st.failed_le (b := post.board)
  rw [countP_of_getElem? _ running] at hbefore
  show _ ≤ n + (r.roster.slots.set i slot).countP _
  rw [countP_set_of_getElem? _ running]
  simp only [Slot.isPausingTo, Bool.false_eq_true, if_false] at hbefore
  split at hfailed
  · rw [if_pos (hslot ‹_›)]
    omega
  · omega

/-- Every step of a crew before shutdown charges the failures that it counts. -/
theorem Step.charged (st : Step false p r move p' roster) (ord : r.InOrder post o p.now)
    (opened : r.IsOpen) (hmoment : moment ≤ p.now) (charged : r.Charged post o moment n p) :
    (⟨r.post, roster⟩ : Run).Charged post o moment n p' := by
  cases st with
  | staffed =>
    intro hnow
    refine Nat.le_trans (charged hnow) (Nat.add_le_add_left ?_ n)
    exact (List.sublist_append_left _ _).countP_le
  | closed _ asked => cases asked
  | reaped _ ended =>
    intro hnow
    have hbefore := charged hnow
    rw [countP_of_getElem? _ ended] at hbefore
    exact hbefore
  | went running st open_end =>
    refine charged.set running st fun hfailed => ?_
    rw [Consumer.hasFailed_of_exit? (by simp [open_end])] at hfailed
    cases hfailed
  | failed running st =>
    -- The pause begins now, so it lasts to one pause after the moment at least.
    refine charged.set running st fun _ => decide_eq_true ?_
    rw [st.act.now, ord.pause]
    exact Nat.add_le_add_right hmoment _
  | retired running st exit_eq unfailed =>
    refine charged.set running st fun hfailed => ?_
    rw [Consumer.hasFailed_of_exit? fun f hf => unfailed f (by simpa [exit_eq] using hf)]
      at hfailed
    cases hfailed
  | @rested i till pausing awake =>
    intro hnow
    have hbefore := charged hnow
    rcases awake with asked | htill
    · cases asked
    · -- A pause that is over is not one of those that are charged.
      have hover : Slot.isPausingTo (moment + o.pause.toNanos) (.pausing till) = false :=
        decide_eq_false (by omega)
      rw [countP_of_getElem? _ pausing, hover] at hbefore
      show _ ≤ n + (r.roster.slots.set i .over).countP _
      rw [countP_set_of_getElem? _ pausing]
      exact hbefore
  | expired draining => exact absurd draining (opened _)
  | _ => exact charged

end Run

/-! ### What is promised -/

/-- The failures of a crew are paced by its pauses. Take any moment of a run before shutdown, and
any earlier one less than a pause ago:

- `window`: in any window of time as long as a pause in which both are, the counter of failures has
  grown by no more than there are permits;
- `blocked`: every failure since then still keeps a permit, so that the consumers that run, the
  permits that are free and the failures since then are together no more than there are permits. -/
structure Paced (post : Work.Post) (o : Options) (past : List Occurrence) (w : World)
    (r : Run) : Prop where
  window : ∀ begin, ∀ x ∈ past, begin ≤ x.before.plant.now →
    w.plant.now < begin + o.pause.toNanos →
    w.plant.failed post.board ≤ x.before.plant.failed post.board + o.size
  blocked : ∀ x ∈ past, w.plant.now < x.before.plant.now + o.pause.toNanos →
    w.plant.failed post.board + r.roster.consumers.length + r.roster.permits.free
      ≤ x.before.plant.failed post.board + o.size

/-- A crew in order whose failures are charged is paced. -/
theorem Run.InOrder.isPaced {post : Work.Post} {o : Options} {past : List Occurrence} {w : World}
    {r : Run} (ord : r.InOrder post o w.plant.now)
    (charged : ∀ x ∈ past,
      r.Charged post o x.before.plant.now (x.before.plant.failed post.board) w.plant) :
    Paced post o past w r := by
  have hblocked : ∀ x ∈ past, w.plant.now < x.before.plant.now + o.pause.toNanos →
      w.plant.failed post.board + r.roster.consumers.length + r.roster.permits.free
        ≤ x.before.plant.failed post.board + o.size := by
    intro x hx hnow
    have hcharged := charged x hx hnow
    have hslots := countP_isPausingTo_le (x.before.plant.now + o.pause.toNanos) r.roster.slots
    have hbalance := ord.balance
    rw [Permits.unheld, ord.size] at hbalance
    rw [Roster.length_consumers]
    omega
  refine ⟨fun begin x hx hbegin hnow => ?_, hblocked⟩
  have hle := hblocked x hx (by omega)
  omega

end Crew

section
variable {stores : List Queue.Store} {i : Nat} {post : Work.Post} {o : Crew.Options}
  {past : List Occurrence} {w w' : World} {event : Event} {r : Crew.Run}

/-- Until the crew joins, nothing has failed at its board. -/
theorem Run.failed_eq_zero (run : Run stores (Crew.Manned i post o) past w)
    (habsent : w.parties[i]? = none) : w.plant.failed post.board = 0 := by
  induction run with
  | start => rfl
  | @step past w w' event before allowed happens ih =>
    have hstep := World.step_party happens i
    rw [habsent] at hstep
    generalize hbefore : w.parties[i]? = party at hstep
    cases hstep
    have no_move : ∀ move, event ≠ .move i move := by
      rintro move rfl
      simp [World.step, hbefore] at happens
    have no_drop : event ≠ .drop i := by
      rintro rfl
      simp [World.step, hbefore] at happens
    rw [World.step_failed before.keepOff allowed happens no_move no_drop]
    exact ih hbefore

/-- What an event comes to for a crew that has not been told to shut down: it is still open, and
its failures since an earlier moment are still charged. -/
theorem World.CrewStep.charged (run : Run stores (Crew.Manned i post o) past w)
    (allowed : Crew.Manned i post o w event) (happens : w.step event = some w')
    (hcrew : w'.parties[i]? = some ⟨false, .crew r⟩)
    (st : World.CrewStep w w' i post o event false r)
    (hbefore : ∀ r, w.parties[i]? = some ⟨false, .crew r⟩ → r.IsOpen) :
    r.IsOpen ∧ ∀ {moment n}, moment ≤ w.plant.now →
      (∀ r, w.parties[i]? = some ⟨false, .crew r⟩ → r.Charged post o moment n w.plant) →
      r.Charged post o moment n w'.plant := by
  cases st with
  | joined absent _ same =>
    refine ⟨nofun, fun _ _ _ => ?_⟩
    rw [same, run.failed_eq_zero absent]
    exact Nat.zero_le _
  | stayed there no_move =>
    refine ⟨hbefore _ there, fun _ hcharged hnow => ?_⟩
    have hstep := World.step_party happens i
    rw [there, hcrew] at hstep
    have no_drop : event ≠ .drop i := by
      cases hstep with
      | stayed _ _ no_drop => exact no_drop
      | _ => nofun
    rw [World.step_failed run.keepOff allowed happens no_move no_drop]
    exact hcharged _ there (Nat.lt_of_le_of_lt (World.now_le_step happens) hnow)
  | moved there st =>
    have ord := (run.posted there).order
    exact ⟨st.isOpen (hbefore _ there), fun hmoment hcharged =>
      st.charged ord (hbefore _ there) hmoment (hcharged _ there)⟩

/-- Until shutdown, a crew is open, and its failures since any moment on record are charged. -/
theorem Run.charged (run : Run stores (Crew.Manned i post o) past w)
    (hcrew : w.parties[i]? = some ⟨false, .crew r⟩) :
    r.IsOpen ∧ ∀ x ∈ past,
      r.Charged post o x.before.plant.now (x.before.plant.failed post.board) w.plant := by
  induction run generalizing r with
  | start => cases hcrew
  | @step past w w' event before allowed happens ih =>
    have hstep := World.step_crew before.keepOff allowed happens hcrew
    obtain ⟨opened, charged⟩ := hstep.charged before allowed happens hcrew fun _ there =>
      (ih there).1
    refine ⟨opened, List.forall_mem_cons.mpr ⟨?_, fun x hx => ?_⟩⟩
    · -- At the moment itself the counter has not grown.
      exact charged (Nat.le_refl _) fun _ _ _ => Nat.le_add_right _ _
    · exact charged (before.now_le x hx) fun _ there => (ih there).2 x hx

/-- In every run, until shutdown, the failures of a crew are paced by its pauses. -/
theorem Run.paced (run : Run stores (Crew.Manned i post o) past w)
    (hcrew : w.parties[i]? = some ⟨false, .crew r⟩) : Crew.Paced post o past w r :=
  (run.posted hcrew).order.isPaced (run.charged hcrew).2

end

/-- The requests of a crew of two are throttled, at first and half a second later. The one slot
fails at once and the other one then, and when the pause of the first slot is over, it is used
again. -/
def twoFailures : List Event :=
  [.move 0 (.crew .staff), .move 0 (.crew (.rested 0)), .advance 1000,
    .move 0 (.crew (.consume 1 (.call .go))), .advance 500,
    .move 0 (.crew (.consume 0 (.call .go))), .inject 0 .throttle 2, .move 0 (.crew .staff),
    .move 0 (.crew .staff), .move 0 (.crew (.started (.ok ()))),
    .join ⟨false, .crew (.create ⟨⟨0, .none⟩, ⟨1, .none⟩, 0, 3750000000⟩ ⟨2, 3000, 1000⟩)⟩,
    .board]

/-- The crew is paced: a second after the first failure, one slot still pauses and the other one
runs again. -/
theorem paced_twoFailures :
    ∃ past w r,
      (past, w) ∈ World.play [.empty "q" 5000000000, .empty "r" 5000000000] twoFailures ∧
      w.parties[0]? = some ⟨false, .crew r⟩ ∧ w.plant.failed 0 = 2 ∧
      r.roster.consumers.length = 1 ∧ r.roster.permits.free = 0 ∧
      Crew.Paced ⟨⟨0, .none⟩, ⟨1, .none⟩, 0, 3750000000⟩ ⟨2, 3000, 1000⟩ past w r := by
  have hplayed : ∃ run ∈ World.play [.empty "q" 5000000000, .empty "r" 5000000000] twoFailures,
      (∃ party ∈ run.2.parties[0]?, party.isCanceled = false ∧
        ∃ r ∈ party.task.crew?, r.roster.consumers.length = 1 ∧ r.roster.permits.free = 0) ∧
      run.2.plant.failed 0 = 2 ∧
      ∀ o ∈ run.1, Crew.Manned 0 ⟨⟨0, .none⟩, ⟨1, .none⟩, 0, 3750000000⟩ ⟨2, 3000, 1000⟩
        o.before o.event := by
    decide
  obtain ⟨⟨past, w⟩, hplay, ⟨⟨isCanceled, task⟩, hparty, rfl, r, hr, hrunning, hfree⟩, hfailed,
    hallowed⟩ := hplayed
  obtain rfl := Task.crew?_eq_some hr
  exact ⟨past, w, r, hplay, hparty, hfailed, hrunning, hfree,
    (Run.play hplay hallowed).paced hparty⟩

end Leasework
