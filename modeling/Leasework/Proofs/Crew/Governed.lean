import Leasework.Proofs.Crew.Manned

/-!
# `Leasework.Proofs.Crew.Governed`: no more consumers than permits, and no permit lost

The permits of a crew are free, gathered by the drain, or held by slots, and together they are
always as many as the options say, however the slots come to their ends: a consumer ends,
fails, crashes, or is aborted. So no more consumers work at once, and no more handlers.

Nor does the crew ever run out of permits for good. A slot whose consumer has failed keeps its
permit while it pauses, and `Run.InOrder.restaff` shows how to go on from there: once all pauses
are over, the slots that paused are rested, and consumers are put into slots until all permits
are held by consumers that run.
-/

set_option autoImplicit false

namespace Leasework

open Work (Consumer ConsumerMove)

namespace Crew

/-! ### Full strength -/

/-- A slot that pauses after a failure. -/
def Slot.isPausing : Slot Consumer → Bool
  | .pausing _ => true
  | _ => false

/-- A slot with a consumer that runs. -/
def Slot.isRunning : Slot Consumer → Bool
  | .running _ => true
  | _ => false

theorem Roster.length_consumers (roster : Roster Consumer) :
    roster.consumers.length = roster.slots.countP Slot.isRunning := by
  unfold consumers
  rw [List.length_filterMap_eq_countP]
  congr 1
  funext slot
  cases slot <;> rfl

/-- A slot that holds a permit runs or pauses. -/
theorem countP_holds (slots : List (Slot Consumer)) :
    slots.countP Slot.holds = slots.countP Slot.isRunning + slots.countP Slot.isPausing := by
  induction slots with
  | nil => rfl
  | cons slot slots ih =>
    simp only [List.countP_cons, ih]
    cases slot <;> simp only [Slot.holds, Slot.isRunning, Slot.isPausing, if_true,
      Bool.false_eq_true, if_false] <;> omega

/-- A step that fills the crew up: a pause is over, or a consumer is put into a slot. -/
def Move.fills : Move → Bool
  | .staff => true
  | .rested _ => true
  | _ => false

namespace Run
variable {p : Plant} {r : Run} {post : Work.Post} {o : Options}

/-- Makes steps, one after the other. -/
def stepAll (isShut : Bool) (p : Plant) (r : Run) : List Move → Option (Plant × Run)
  | [] => some (p, r)
  | move :: moves => do
    let (p, r) ← r.step isShut p move
    r.stepAll isShut p moves

theorem stepAll_cons {isShut : Bool} {p' : Plant} {r' : Run} {move : Move} {moves : List Move}
    (hstep : r.step isShut p move = some (p', r')) :
    r.stepAll isShut p (move :: moves) = r'.stepAll isShut p' moves := by
  simp only [stepAll, hstep, bind, Option.bind_some]

/-- Steps that fill a crew up bring it to so many consumers that run, without any time passing
and without anybody else. -/
def CanFill (size : Nat) (p : Plant) (r : Run) : Prop :=
  ∃ moves r', moves.all Move.fills = true ∧ r.stepAll false p moves = some (p, r') ∧
    r'.roster.consumers.length = size

theorem CanFill.cons {size : Nat} {move : Move} {r' : Run}
    (hstep : r.step false p move = some (p, r')) (hfills : Move.fills move = true)
    (h : r'.CanFill size p) : r.CanFill size p := by
  obtain ⟨moves, r'', hall, hsteps, hlength⟩ := h
  refine ⟨move :: moves, r'', ?_, ?_, hlength⟩
  · rw [List.all_cons, hfills, hall]
    rfl
  · rw [stepAll_cons hstep]
    exact hsteps

/-- Once all pauses are over, a crew that is staffing can be brought to its full strength. -/
theorem InOrder.restaff {n : Nat} (ord : r.InOrder post o p.now)
    (staffing : r.roster.phase = .staffing)
    (slept : ∀ till, .pausing till ∈ r.roster.slots → till ≤ p.now)
    (hn : 2 * r.roster.slots.countP Slot.isPausing + r.roster.permits.free = n) :
    r.CanFill o.size p := by
  -- A pause that is over makes one permit free, and a free permit makes one more consumer run.
  induction n generalizing r with
  | zero =>
    refine ⟨[], r, rfl, rfl, ?_⟩
    have hgathered := (ord.unwanted (by rw [staffing]; rfl)).1
    have hbalance := ord.balance
    rw [Permits.unheld, hgathered, countP_holds, ord.size] at hbalance
    rw [Roster.length_consumers]
    omega
  | succ n ih =>
    by_cases hpausing : 0 < r.roster.slots.countP Slot.isPausing
    · obtain ⟨slot, hmem, hslot⟩ := List.countP_pos_iff.mp hpausing
      obtain ⟨i, hi⟩ := List.mem_iff_getElem?.mp hmem
      cases slot with
      | pausing till =>
        have hstep : r.step false p (.rested i) = some (p, ⟨r.post, r.roster.slotOver i⟩) := by
          simp only [step, Roster.slotRested, hi, slept till hmem, decide_true, Bool.or_true,
            if_true, onRoster, Option.map_some]
        refine .cons hstep rfl (ih (ord.slotOver hi rfl) staffing (fun till' hmem' => ?_) ?_)
        · rcases List.mem_or_eq_of_mem_set hmem' with hmem' | heq
          · exact slept till' hmem'
          · cases heq
        · obtain ⟨hgathered, hwanted⟩ := ord.unwanted (by rw [staffing]; rfl)
          have hfree : r.roster.permits.release.free = r.roster.permits.free + 1 := by
            rw [Permits.release, hgathered, hwanted]
            rfl
          have hcount : (r.roster.slots.set i .over).countP Slot.isPausing + 1
              = r.roster.slots.countP Slot.isPausing := by
            rw [countP_set_of_getElem? _ hi, countP_of_getElem? _ hi]
            rfl
          show 2 * (r.roster.slots.set i .over).countP Slot.isPausing
            + r.roster.permits.release.free = n
          omega
      | _ => cases hslot
    · have hfree : 0 < r.roster.permits.free := by omega
      have hstep : r.step false p .staff = some (p, ⟨r.post,
          { r.roster with
            permits := { r.roster.permits with free := r.roster.permits.free - 1 }
            slots := r.roster.slots ++ [.running (.waiting r.post true)] }⟩) := by
        simp only [step, Roster.staff, staffing, Bool.false_eq_true, if_false,
          Permits.acquire?, hfree, if_true, Option.map_some, onRoster]
      obtain ⟨roster, st, heq⟩ := step_cases hstep
      have ord' := st.inOrder ord
      rw [← heq] at ord'
      refine .cons hstep rfl (ih ord' staffing (fun till hmem => ?_) ?_)
      · rcases List.mem_append.mp hmem with hmem | hmem
        · exact slept till hmem
        · cases List.mem_singleton.mp hmem
      · show 2 * (r.roster.slots ++ [Slot.running (Consumer.waiting r.post true)]).countP
          Slot.isPausing + (r.roster.permits.free - 1) = n
        rw [List.countP_append]
        show 2 * (r.roster.slots.countP Slot.isPausing + 0) + (r.roster.permits.free - 1) = n
        omega

end Run

/-! ### What is promised -/

/-- A crew is governed by its permits:

- `balance`: those that are free, those that are gathered and those that slots hold are as many
  as the options say;
- `ungathered`: none are gathered before draining;
- `counted`: the board of the crew counts its consumers that are at work;
- `working`: no more of them work than there are permits;
- `handling`: no more handlers are at work than consumers;
- `restaffed`: a crew that is staffing can be at full strength when a pause has gone by. -/
structure Governed (o : Options) (p : Plant) (isShut : Bool) (r : Run) : Prop where
  balance : r.roster.permits.free + r.roster.permits.gathered
    + r.roster.slots.countP Slot.holds = o.size
  ungathered : r.roster.phase.isEarly = true → r.roster.permits.gathered = 0
  counted : p.inFlight? r.post.board = some (r.roster.consumers.countP Consumer.isAtWork)
  working : r.roster.consumers.countP Consumer.isAtWork ≤ o.size
  handling : (r.roster.consumers.filterMap Consumer.handling?).length
    ≤ r.roster.consumers.countP Consumer.isAtWork
  restaffed : r.roster.phase = .staffing → isShut = false →
    ∀ p', p.now + o.pause.toNanos ≤ p'.now → r.CanFill o.size p'

/-- A crew that stands where it should is governed by its permits. -/
theorem Posted.isGoverned {post : Work.Post} {o : Options} {p : Plant} {r : Run} (isShut : Bool)
    (posted : Posted post o p r) : Governed o p isShut r := by
  have ord := posted.order
  have hbalance := ord.balance
  rw [Permits.unheld, ord.size] at hbalance
  refine ⟨hbalance, fun hearly => (ord.unwanted hearly).1, ?_, ?_, ?_, ?_⟩
  · rw [ord.post, Roster.countP_consumers]
    exact posted.board
  · have hle := r.roster.countP_isBusy_le
    rw [Roster.countP_consumers]
    omega
  · rw [List.length_filterMap_eq_countP]
    exact List.countP_mono_left fun c _ hc => Consumer.isAtWork_of_handling? hc
  · intro staffing _ p' hlate
    refine (ord.later ?_).restaff staffing (fun till hmem => ?_) rfl
    · omega
    · have hpause := ord.pauses till hmem
      rw [ord.pause] at hpause
      omega

end Crew

section
variable {stores : List Queue.Store} {i : Nat} {post : Work.Post} {o : Crew.Options}
  {past : List Occurrence} {w : World} {isCanceled : Bool} {r : Crew.Run}

/-- In every run a crew is governed by its permits. -/
theorem Run.governed (run : Run stores (Crew.Manned i post o) past w)
    (hcrew : w.parties[i]? = some ⟨isCanceled, .crew r⟩) :
    Crew.Governed o w.plant isCanceled r :=
  (run.posted hcrew).isGoverned isCanceled

end

/-- A crew of two is hired. The handler crashes on one request and fails on another, whose slot
pauses. A third request is being worked on in the slot that the crash has made free. -/
def crashAndFailure : List Event :=
  [.move 3 (.crew (.consume 1 (.call .go))), .move 3 (.crew .staff), .move 3 (.crew (.reap 0)),
    .move 3 (.crew (.consume 0 (.crash "boom"))), .move 3 (.crew (.consume 0 (.call .go))),
    .move 3 (.crew (.consume 1 (.call .go))), .move 3 (.crew (.consume 1 .settle)), .keeper 0,
    .move 3 (.crew (.consume 1 (.answer (.error (.failed "no"))))),
    .move 3 (.crew (.consume 1 (.call .go))), .move 3 (.crew .staff), .move 3 (.crew .staff),
    .move 3 (.crew (.started (.ok ()))),
    .join ⟨false, .crew (.create ⟨⟨0, .none⟩, ⟨1, .none⟩, 0, 3750000000⟩ ⟨2, 3000, 1000⟩)⟩,
    .move 2 (.call .go), .move 1 (.call .go), .move 0 (.call .go),
    .join ⟨false, .call (.start ⟨0, .none⟩ (.send "c"))⟩,
    .join ⟨false, .call (.start ⟨0, .none⟩ (.send "b"))⟩,
    .join ⟨false, .call (.start ⟨0, .none⟩ (.send "a"))⟩, .board]

/-- A crew is governed while one of its slots pauses and the other is busy. -/
theorem governed_crashAndFailure :
    ∃ past w r,
      (past, w) ∈ World.play [.empty "q" 5000000000, .empty "r" 5000000000] crashAndFailure ∧
      w.parties[3]? = some ⟨false, .crew r⟩ ∧ r.roster.permits = ⟨0, 0, 0⟩ ∧
      w.plant.inFlight? 0 = some 1 ∧ Crew.Governed ⟨2, 3000, 1000⟩ w.plant false r := by
  have hplayed : ∃ run ∈ World.play [.empty "q" 5000000000, .empty "r" 5000000000]
      crashAndFailure, (∃ party ∈ run.2.parties[3]?, party.isCanceled = false ∧
        ∃ r ∈ party.task.crew?, r.roster.permits = ⟨0, 0, 0⟩) ∧
      run.2.plant.inFlight? 0 = some 1 ∧
      ∀ o ∈ run.1, Crew.Manned 3 ⟨⟨0, .none⟩, ⟨1, .none⟩, 0, 3750000000⟩ ⟨2, 3000, 1000⟩
        o.before o.event := by
    decide
  obtain ⟨⟨past, w⟩, hplay, ⟨⟨isCanceled, task⟩, hparty, rfl, r, hr, hpermits⟩, hboard,
    hallowed⟩ := hplayed
  obtain rfl := Task.crew?_eq_some hr
  exact ⟨past, w, r, hplay, hparty, hpermits, hboard, (Run.play hplay hallowed).governed hparty⟩

end Leasework
