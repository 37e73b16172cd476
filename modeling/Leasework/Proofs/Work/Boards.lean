import Leasework.Proofs.Work.Steps

/-!
# `Leasework.Proofs.Work.Boards`: how many requests a board says are being worked on

A consumer puts a request on its board when the work on it begins, and takes it off when the
work ends, in whatever way: with the last call of the job, with a crash of the handler, or
when the consumer is dropped. So a step of a consumer changes the number on its board exactly
as the consumer itself begins and ends to work (`Consumer.Step.inFlight?`), and leaves the
other boards alone.

Calls and keepers change no board at all.
-/

set_option autoImplicit false

namespace Leasework

namespace Plant
variable {p p' : Plant} {b i k : Nat}

/-- How many requests are being worked on, as a board says. -/
def inFlight? (p : Plant) (board : Nat) : Option Nat := p.boards[board]?.map (·.inFlight)

theorem inFlight?_of_boards (h : p'.boards = p.boards) : p'.inFlight? b = p.inFlight? b := by
  unfold inFlight?
  rw [h]

/-- A board that is changed leaves the others as they were. -/
theorem inFlight?_onBoard_ne {change : Work.Board → Work.Board} (hne : i ≠ b) :
    (p.onBoard i change).inFlight? b = p.inFlight? b := by
  unfold inFlight? onBoard
  rw [List.getElem?_modify_ne _ _ hne]

/-- What a change does to the number on the board. -/
theorem inFlight?_onBoard {change : Work.Board → Work.Board} {f : Nat → Nat}
    (hchange : ∀ board, (change board).inFlight = f board.inFlight) :
    (p.onBoard b change).inFlight? b = (p.inFlight? b).map f := by
  unfold inFlight? onBoard
  rw [List.getElem?_modify_eq, Option.map_map]
  cases p.boards[b]? with
  | none => rfl
  | some board => exact congrArg some (hchange board)

/-- A change that leaves the number on its board leaves the numbers on all boards. -/
theorem inFlight?_onBoard_eq {change : Work.Board → Work.Board}
    (hchange : ∀ board, (change board).inFlight = board.inFlight) :
    (p.onBoard i change).inFlight? b = p.inFlight? b := by
  by_cases hne : i = b
  · rw [hne, inFlight?_onBoard (f := id) hchange, Option.map_id, id]
  · exact inFlight?_onBoard_ne hne

theorem inFlight?_addBoard {n : Nat} (h : p.inFlight? b = some n) :
    p.addBoard.1.inFlight? b = some n := by
  obtain ⟨board, hb, rfl⟩ := Option.map_eq_some_iff.mp h
  unfold inFlight? addBoard
  rw [List.getElem?_append_left (List.getElem?_eq_some_iff.mp hb).1, hb]
  rfl

theorem boards_stepCall {canceled : Bool} {c : Queue.Call} {move : Queue.CallMove}
    {progress : Queue.Progress} (h : p.stepCall canceled c move = some (p', progress)) :
    p'.boards = p.boards := by
  obtain ⟨s, s', -, -, rfl⟩ := stepCall_cases h
  rfl

theorem boards_collectKeeper {keeper : Lease.Keeper Queue.Call}
    (h : p.collectKeeper? k = some (p', keeper)) : p'.boards = p.boards := by
  rw [(collectKeeper?_cases h).2]

theorem boards_stepKeeper (h : p.stepKeeper k = some p') : p'.boards = p.boards := by
  obtain ⟨e, -, st⟩ := stepKeeper_cases h
  cases st with
  | ended => rfl
  | begun _ _ _ made => exact (boards_stepCall made :)
  | continued _ made => exact (boards_stepCall made :)

end Plant

namespace Work.Consumer
variable {canceled : Bool} {p p' : Plant} {c c' : Consumer} {move : ConsumerMove} {b : Nat}

/-- Whether a consumer works on a request. -/
def isAtWork (c : Consumer) : Bool :=
  match c.activity with
  | .working _ _ _ _ => true
  | _ => false

/-- What a consumer adds to the number on its board. -/
def load (c : Consumer) : Nat := if c.isAtWork then 1 else 0

theorem load_of_working {h : Queue.Handle} {d : Queue.Delivery} {k : Nat} {job : Job Queue.Call}
    (doing : c.activity = .working h d k job) : c.load = 1 := by
  rw [load, isAtWork, doing]
  rfl

theorem load_of_receiving {call : Queue.Call} (doing : c.activity = .receiving call) :
    c.load = 0 := by
  rw [load, isAtWork, doing]
  rfl

/-- A handler is at work only while its consumer is. -/
theorem isAtWork_of_handling? (h : c.handling?.isSome) : c.isAtWork = true := by
  unfold handling? at h
  unfold isAtWork
  split at h
  · rename_i doing
    rw [doing]
  · cases h

theorem isAtWork_of_exit? {exit : Exit} (h : c.exit? = some exit) : c.isAtWork = false := by
  unfold exit? at h
  unfold isAtWork
  split at h
  · rename_i ended
    rw [ended]
  · cases h

theorem inFlight?_conclude (p : Plant) (c : Consumer) (result : Result) :
    (conclude p c result).1.inFlight? b = p.inFlight? b := by
  unfold conclude
  split
  · rcases result with f | (_ | _)
    · exact Plant.inFlight?_onBoard_eq fun _ => rfl
    · rfl
    · rfl
  · rfl

theorem load_conclude (p : Plant) (c : Consumer) (result : Result) :
    (conclude p c result).2.load = 0 := by
  rcases conclude_consumer p c result with h | ⟨exit, h⟩
  · rw [h]
    rfl
  · rw [h]
    rfl

theorem inFlight_credit (r : Except Queue.Failure Unit) (job : Job Queue.Call) (board : Board) :
    (job.credit r board).inFlight = board.inFlight := by
  unfold Job.credit
  split <;> rfl

/-- A step of a consumer leaves the boards of others alone. -/
theorem Step.inFlight?_other (st : Step canceled p c move p' c') (hb : c.post.board ≠ b) :
    p'.inFlight? b = p.inFlight? b := by
  have hcall : ∀ {canceled call move p₁ progress},
      p.stepCall canceled call move = some (p₁, progress) → p₁.inFlight? b = p.inFlight? b :=
    fun made => Plant.inFlight?_of_boards (Plant.boards_stepCall made)
  cases st with
  | waited _ made => exact hcall made
  | began _ made => exact (Plant.inFlight?_onBoard_ne hb).trans (hcall made)
  | unserved _ made => exact (inFlight?_conclude _ _ _).trans (hcall made)
  | proceeded _ _ made => exact hcall made
  | sent _ made => exact (Plant.inFlight?_onBoard_ne hb).trans (hcall made)
  | unsent _ made => exact (Plant.inFlight?_onBoard_ne hb).trans (hcall made)
  | closed _ _ made =>
    rw [inFlight?_conclude, Plant.inFlight?_onBoard_ne hb, Plant.inFlight?_onBoard_ne hb]
    exact hcall made
  | answered => exact Plant.inFlight?_of_boards rfl
  | crashed => exact Plant.inFlight?_onBoard_ne hb
  | settled _ made => exact Plant.inFlight?_of_boards (Plant.boards_collectKeeper made)
  | refused _ made => exact Plant.inFlight?_of_boards (Plant.boards_collectKeeper made)

/-- A step of a consumer changes the number on its board as it begins and ends to work. -/
theorem Step.inFlight? (st : Step canceled p c move p' c') {n : Nat}
    (hn : p.inFlight? c.post.board = some (n + c.load)) :
    p'.inFlight? c.post.board = some (n + c'.load) := by
  have hcall : ∀ {canceled call move p₁ progress},
      p.stepCall canceled call move = some (p₁, progress) →
      p₁.inFlight? c.post.board = some (n + c.load) :=
    fun made => (Plant.inFlight?_of_boards (Plant.boards_stepCall made)).trans hn
  have hcollect : ∀ {k p₁ keeper}, p.collectKeeper? k = some (p₁, keeper) →
      p₁.inFlight? c.post.board = some (n + c.load) :=
    fun made => (Plant.inFlight?_of_boards (Plant.boards_collectKeeper made)).trans hn
  have hid : ∀ board : Board, (id board).inFlight = board.inFlight := fun _ => rfl
  cases st with
  | waited doing made =>
    rw [hcall made, load_of_receiving doing]
    rfl
  | @began call callMove p₁ d rest doing made =>
    have hbegin : (p₁.onBoard c.post.board .begin).inFlight? c.post.board = some (n + 0 + 1) := by
      rw [Plant.inFlight?_onBoard (f := (· + 1)) fun _ => rfl, hcall made,
        load_of_receiving doing]
      rfl
    exact hbegin
  | unserved doing made =>
    rw [inFlight?_conclude, load_conclude, hcall made, load_of_receiving doing]
  | proceeded doing _ made =>
    rw [hcall made, load_of_working doing]
    rfl
  | sent doing made =>
    rw [Plant.inFlight?_onBoard_eq hid, hcall made, load_of_working doing]
    rfl
  | unsent doing made =>
    rw [Plant.inFlight?_onBoard_eq hid, hcall made, load_of_working doing]
    rfl
  | closed doing _ made =>
    -- The request goes off the board, and the end of the round does not bring it back.
    rw [inFlight?_conclude, load_conclude, Plant.inFlight?_onBoard (f := (· - 1)) fun _ => rfl,
      Plant.inFlight?_onBoard_eq (inFlight_credit _ _), hcall made, load_of_working doing]
    rfl
  | answered a doing =>
    rw [load_of_working doing] at hn
    exact hn
  | crashed text doing =>
    have hfinish : (p.onBoard c.post.board .finish).inFlight? c.post.board
        = some (n + 1 - 1) := by
      rw [Plant.inFlight?_onBoard (f := (· - 1)) fun _ => rfl, hn, load_of_working doing]
      rfl
    exact hfinish
  | settled doing made =>
    rw [hcollect made, load_of_working doing]
    rfl
  | refused doing made =>
    rw [hcollect made, load_of_working doing]
    rfl

/-- A consumer that is dropped takes its request off its board. -/
theorem inFlight?_abandon {n : Nat} (hn : p.inFlight? c.post.board = some (n + c.load)) :
    (c.abandon p).inFlight? c.post.board = some n := by
  unfold abandon
  split
  · rename_i doing
    have hfinish : (p.onBoard c.post.board .finish).inFlight? c.post.board
        = some (n + 1 - 1) := by
      rw [Plant.inFlight?_onBoard (f := (· - 1)) fun _ => rfl, hn, load_of_working doing]
      rfl
    exact hfinish
  · rename_i hidle
    have hload : c.load = 0 := by
      unfold load isAtWork
      split
      · rename_i doing
        exact absurd doing (hidle _ _ _ _)
      · rfl
    rw [hn, hload, Nat.add_zero]

theorem inFlight?_abandon_other (hb : c.post.board ≠ b) :
    (c.abandon p).inFlight? b = p.inFlight? b := by
  unfold abandon
  split
  · exact Plant.inFlight?_onBoard_ne hb
  · rfl

/-- Consumers of one board that are dropped, one after the other, take their requests off
it. -/
theorem inFlight?_foldl_abandon {consumers : List Consumer} {n : Nat}
    (hpost : ∀ c ∈ consumers, c.post.board = b)
    (hn : p.inFlight? b = some (n + consumers.countP isAtWork)) :
    (consumers.foldl abandon p).inFlight? b = some n := by
  induction consumers generalizing p with
  | nil => exact hn
  | cons c consumers ih =>
    rw [List.forall_mem_cons] at hpost
    refine ih hpost.2 ?_
    obtain rfl := hpost.1
    refine inFlight?_abandon ?_
    rw [hn, List.countP_cons, load, Nat.add_assoc]

end Work.Consumer

end Leasework
