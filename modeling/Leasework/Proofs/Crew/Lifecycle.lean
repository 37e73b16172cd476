import Leasework.Proofs.Crew.Drain

/-!
# `Leasework.Proofs.Crew.Lifecycle`: a crew from its first move to its last

The moves that a crew has made stand on record, and the order in which they stand is told by the
place that the crew has come to: `Crew.Chronicle` is the list of all orders that there are. The
handler is made ready first, and disposed of last; in between slots are staffed, drained and
joined, each in its turn.

`Run.lifecycle` reads off what a handler may rely on. It is made ready once, before any request
is received; if it refuses, nothing else happens; and when it is disposed of, once, nobody is at
work any more.
-/

set_option autoImplicit false

namespace Leasework

open Work (Consumer ConsumerMove)

/-! ### Moves on record -/

/-- The move of the crew at a place that an event is. -/
def Event.crewMove? (i : Nat) : Event → Option Crew.Move
  | .move j (.crew made) => if j = i then some made else none
  | _ => none

theorem Event.crewMove?_eq_none {i : Nat} {event : Event}
    (no_move : ∀ move, event ≠ .move i move) : event.crewMove? i = none := by
  unfold crewMove?
  split
  · rename_i j made
    by_cases hj : j = i
    · exact absurd (by rw [hj]) (no_move (.crew made))
    · exact if_neg hj
  · rfl

namespace Crew

/-- The moves of the crew at a place, the newest first. -/
def movesOf (i : Nat) (past : List Occurrence) : List Move :=
  past.filterMap fun occ => occ.event.crewMove? i

/-- A move that is about slots. -/
def Move.isOfSlots : Move → Bool
  | .staff | .reap _ | .consume _ _ | .rested _ => true
  | _ => false

/-- The moves with which a crew comes to where it is, the newest first. -/
inductive Chronicle : Phase → List Move → Prop
  /-- The handler is being made ready, and nothing has happened. -/
  | starting : Chronicle .starting []
  /-- The handler has refused. -/
  | refused (refusal : Work.Refusal) :
      Chronicle (.ended (.error (.startUp refusal))) [.started (.error refusal)]
  /-- The handler is ready. -/
  | readied : Chronicle .staffing [.started (.ok ())]
  /-- Something happens to slots. -/
  | worked {phase : Phase} {moves : List Move} {move : Move} (before : Chronicle phase moves)
      (hasSlots : phase.hasSlots = true) (ofSlots : move.isOfSlots = true) :
      Chronicle phase (move :: moves)
  /-- Draining begins. -/
  | closed {moves : List Move} (till : Nat) (before : Chronicle .staffing moves) :
      Chronicle (.draining till) (.close :: moves)
  /-- All permits have been gathered. -/
  | drained {moves : List Move} {till : Nat} (before : Chronicle (.draining till) moves) :
      Chronicle .joining (.drained :: moves)
  /-- The drain time is over. -/
  | expired {moves : List Move} {till : Nat} (before : Chronicle (.draining till) moves) :
      Chronicle .joining (.expired :: moves)
  /-- No slot is left, and the handler is being disposed of. -/
  | joined {moves : List Move} (before : Chronicle .joining moves) :
      Chronicle .disposing (.joined :: moves)
  /-- The handler has been disposed of. -/
  | disposed {moves : List Move} (before : Chronicle .disposing moves) :
      Chronicle (.ended (.ok ())) (.disposed :: moves)

namespace Chronicle
variable {phase : Phase} {moves : List Move}

/-- The handler is made ready once, and before everything else. -/
theorem prepared (c : Chronicle phase moves) :
    (phase = .starting ∧ moves = []) ∨
      ∃ answer later, moves = later ++ [.started answer] ∧ ∀ a, .started a ∉ later := by
  have hlater : ∀ {move : Move} {moves : List Move}, (∀ a, move ≠ .started a) →
      (∃ answer later, moves = later ++ [.started answer] ∧ ∀ a, .started a ∉ later) →
      ∃ answer later, move :: moves = later ++ [.started answer] ∧ ∀ a, .started a ∉ later := by
    rintro move moves hmove ⟨answer, later, rfl, hnone⟩
    refine ⟨answer, move :: later, rfl, fun a hmem => ?_⟩
    rcases List.mem_cons.mp hmem with heq | hmem
    · exact hmove a heq.symm
    · exact hnone a hmem
  induction c with
  | starting => exact Or.inl ⟨rfl, rfl⟩
  | refused refusal => exact Or.inr ⟨.error refusal, [], rfl, fun _ => List.not_mem_nil⟩
  | readied => exact Or.inr ⟨.ok (), [], rfl, fun _ => List.not_mem_nil⟩
  | @worked phase moves move _ hasSlots ofSlots ih =>
    rcases ih with ⟨rfl, -⟩ | ih
    · cases hasSlots
    · refine Or.inr (hlater (fun a heq => ?_) ih)
      rw [heq] at ofSlots
      cases ofSlots
  | closed _ _ ih | drained _ ih | expired _ ih | joined _ ih | disposed _ ih =>
    rcases ih with ⟨hphase, -⟩ | ih
    · cases hphase
    · exact Or.inr (hlater nofun ih)

/-- Whoever has refused makes no other move. -/
theorem of_refused (c : Chronicle phase moves) {refusal : Work.Refusal}
    (h : .started (.error refusal) ∈ moves) :
    phase = .ended (.error (.startUp refusal)) ∧ moves = [.started (.error refusal)] := by
  induction c with
  | starting => cases h
  | refused refusal' =>
    cases List.mem_singleton.mp h
    exact ⟨rfl, rfl⟩
  | readied => cases List.mem_singleton.mp h
  | worked _ hasSlots ofSlots ih =>
    rcases List.mem_cons.mp h with rfl | h
    · cases ofSlots
    · rw [(ih h).1] at hasSlots
      cases hasSlots
  | closed _ _ ih | drained _ ih | expired _ ih | joined _ ih | disposed _ ih =>
    rcases List.mem_cons.mp h with heq | h
    · cases heq
    · cases (ih h).1

/-- Only a refusal of the handler makes a crew fail. -/
theorem of_failed {f : Work.Failure} (c : Chronicle (.ended (.error f)) moves) :
    ∃ refusal, f = .startUp refusal ∧ moves = [.started (.error refusal)] := by
  cases c with
  | refused refusal => exact ⟨refusal, rfl, rfl⟩
  | worked _ hasSlots => cases hasSlots

/-- The handler is disposed of with the last move, when the slots have been joined. -/
theorem of_disposed (c : Chronicle phase moves) (h : .disposed ∈ moves) :
    phase = .ended (.ok ()) := by
  induction c with
  | starting => cases h
  | refused => cases List.mem_singleton.mp h
  | readied => cases List.mem_singleton.mp h
  | worked _ hasSlots ofSlots ih =>
    rcases List.mem_cons.mp h with rfl | h
    · cases ofSlots
    · rw [ih h] at hasSlots
      cases hasSlots
  | disposed => rfl
  | closed _ _ ih | drained _ ih | expired _ ih | joined _ ih =>
    rcases List.mem_cons.mp h with heq | h
    · cases heq
    · cases ih h

/-- A crew that has ended well has joined its slots and disposed of its handler, once. -/
theorem of_ended (c : Chronicle (.ended (.ok ())) moves) :
    ∃ earlier, moves = .disposed :: .joined :: earlier ∧ .disposed ∉ earlier := by
  cases c with
  | worked _ hasSlots => cases hasSlots
  | disposed before =>
    cases before with
    | worked _ hasSlots => cases hasSlots
    | joined before =>
      refine ⟨_, rfl, fun hmem => ?_⟩
      cases before.of_disposed hmem

/-- Whoever is past staffing has begun to drain. -/
theorem close_mem (c : Chronicle phase moves) (hlate : phase.isEarly = false)
    (hready : ∀ f, phase ≠ .ended (.error f)) : .close ∈ moves := by
  induction c with
  | starting => cases hlate
  | refused refusal => exact absurd rfl (hready _)
  | readied => cases hlate
  | worked _ _ _ ih => exact List.mem_cons_of_mem _ (ih hlate hready)
  | closed => exact List.mem_cons_self
  | drained _ ih | expired _ ih | joined _ ih | disposed _ ih =>
    exact List.mem_cons_of_mem _ (ih rfl nofun)

end Chronicle

/-! ### A crew and its record -/

/-- What a crew has done is told by where it is, and it has begun to drain only after shutdown
was asked for. -/
structure Told (i : Nat) (past : List Occurrence) (isCanceled : Bool) (r : Run) : Prop where
  chronicle : Chronicle r.roster.phase (movesOf i past)
  asked : .close ∈ movesOf i past → isCanceled = true

section
variable {isCanceled : Bool} {p p' : Plant} {r : Run} {move : Move} {roster : Roster Consumer}
  {post : Work.Post} {o : Options} {now : Nat} {moves : List Move}

/-- Every step of a crew goes on record where it belongs. -/
theorem Run.Step.chronicle (st : r.Step isCanceled p move p' roster)
    (ord : r.InOrder post o now) (c : Chronicle r.roster.phase moves) :
    Chronicle roster.phase (move :: moves) := by
  cases st with
  | readied starting =>
    rw [starting] at c
    cases c with
    | starting => exact .readied
    | worked _ hasSlots => cases hasSlots
  | refused starting =>
    rw [starting] at c
    cases c with
    | starting => exact .refused _
    | worked _ hasSlots => cases hasSlots
  | staffed staffing => exact .worked c (by rw [staffing]; rfl) rfl
  | closed staffing => exact .closed _ (staffing ▸ c)
  | reaped _ ended => exact .worked c (ord.hasSlots ended) rfl
  | went running => exact .worked c (ord.hasSlots running) rfl
  | failed running => exact .worked c (ord.hasSlots running) rfl
  | retired running => exact .worked c (ord.hasSlots running) rfl
  | rested pausing => exact .worked c (ord.hasSlots pausing) rfl
  | drained draining => exact .drained (draining ▸ c)
  | expired draining => exact .expired (draining ▸ c)
  | joined joining => exact .joined (joining ▸ c)
  | disposed disposing => exact .disposed (disposing ▸ c)

/-- Only a crew that shutdown has been asked of begins to drain. -/
theorem Run.Step.asked (st : r.Step isCanceled p .close p' roster) : isCanceled = true := by
  cases st with
  | closed _ asked => exact asked

end

section
variable {stores : List Queue.Store} {i : Nat} {post : Work.Post} {o : Options}
  {past : List Occurrence} {w w' : World} {event : Event} {isCanceled : Bool} {r : Run}

theorem movesOf_cons_of_none {occ : Occurrence} (h : occ.event.crewMove? i = none) :
    movesOf i (occ :: past) = movesOf i past :=
  List.filterMap_cons_none h

/-- In every run the record of a crew tells where it is. -/
theorem told (run : Leasework.Run stores (Manned i post o) past w)
    (hcrew : w.parties[i]? = some ⟨isCanceled, .crew r⟩) : Told i past isCanceled r := by
  induction run generalizing isCanceled r with
  | start => cases hcrew
  | @step past w w' event before allowed happens ih =>
    have hstep := World.step_crew before.keepOff allowed happens hcrew
    cases hstep with
    | joined absent =>
      have hnone : movesOf i past = [] := List.filterMap_eq_nil_iff.mpr fun occ hocc =>
        Event.crewMove?_eq_none (before.absent_before absent occ hocc).2
      refine ⟨?_, fun hclose => ?_⟩
      · rw [movesOf_cons_of_none rfl, hnone]
        exact .starting
      · rw [movesOf_cons_of_none rfl, hnone] at hclose
        cases hclose
    | stayed there no_move =>
      have hsame : movesOf i (⟨w, event, w'⟩ :: past) = movesOf i past :=
        movesOf_cons_of_none (Event.crewMove?_eq_none no_move)
      have t := ih there
      exact ⟨hsame ▸ t.chronicle, hsame ▸ t.asked⟩
    | canceled there =>
      have t := ih there
      refine ⟨?_, fun _ => rfl⟩
      rw [movesOf_cons_of_none rfl]
      exact t.chronicle
    | @moved _ r move roster there st =>
      have t := ih there
      have hmoves : movesOf i (⟨w, .move i (.crew move), w'⟩ :: past)
          = move :: movesOf i past :=
        List.filterMap_cons_some (if_pos rfl)
      refine ⟨?_, fun hclose => ?_⟩
      · rw [hmoves]
        exact st.chronicle (before.posted there).order t.chronicle
      · rw [hmoves] at hclose
        rcases List.mem_cons.mp hclose with heq | hclose
        · cases heq
          exact st.asked
        · exact t.asked hclose

end

/-! ### What is promised -/

/-- What a handler may rely on, by the moves of its crew on record:

- `prepared`: it is made ready once, and before the crew makes any other move;
- `unready`: until then there is no slot;
- `refused`: if it refuses, the crew fails with that refusal, and no other move is ever made;
- `failed`: a crew fails for no other reason;
- `succeeded`: a crew that ends well was asked to shut down, has joined its slots, and after that
  has disposed of the handler, once;
- `disposed`: a handler that has been disposed of is not used any more;
- `idle`: while the handler is being disposed of, and afterwards, there is no slot, and the board
  of the crew says that no request is being worked on. -/
structure Lifecycle (i : Nat) (past : List Occurrence) (p : Plant) (isCanceled : Bool)
    (r : Run) : Prop where
  prepared : movesOf i past = [] ∨
    ∃ answer later, movesOf i past = later ++ [.started answer] ∧ ∀ a, .started a ∉ later
  unready : movesOf i past = [] → r.roster.phase = .starting ∧ r.roster.slots = []
  refused : ∀ refusal, .started (.error refusal) ∈ movesOf i past →
    movesOf i past = [.started (.error refusal)] ∧
      r.roster.phase = .ended (.error (.startUp refusal)) ∧ r.roster.slots = []
  failed : ∀ f, r.roster.phase = .ended (.error f) →
    ∃ refusal, f = .startUp refusal ∧ movesOf i past = [.started (.error refusal)]
  succeeded : r.roster.phase = .ended (.ok ()) → isCanceled = true ∧
    ∃ earlier, movesOf i past = .disposed :: .joined :: earlier ∧ .disposed ∉ earlier
  disposed : .disposed ∈ movesOf i past → r.roster.phase = .ended (.ok ())
  idle : (r.roster.phase = .disposing ∨ ∃ result, r.roster.phase = .ended result) →
    r.roster.slots = [] ∧ p.inFlight? r.post.board = some 0

end Crew

section
variable {stores : List Queue.Store} {i : Nat} {post : Work.Post} {o : Crew.Options}
  {past : List Occurrence} {w : World} {isCanceled : Bool} {r : Crew.Run}

/-- In every run the handler of a crew is made ready before everything and disposed of after
everything. -/
theorem Run.lifecycle (run : Run stores (Crew.Manned i post o) past w)
    (hcrew : w.parties[i]? = some ⟨isCanceled, .crew r⟩) :
    Crew.Lifecycle i past w.plant isCanceled r := by
  have t := Crew.told run hcrew
  have posted := run.posted hcrew
  have c := t.chronicle
  refine ⟨?prepared, ?unready, ?refused, ?failed, ?succeeded, c.of_disposed, ?idle⟩
  case prepared => exact c.prepared.imp And.right id
  case unready =>
    intro hnone
    rcases c.prepared with ⟨hphase, -⟩ | ⟨answer, later, hmoves, -⟩
    · exact ⟨hphase, posted.order.empty (by rw [hphase]; rfl)⟩
    · rw [hnone] at hmoves
      exact absurd hmoves.symm (List.append_ne_nil_of_right_ne_nil _ (List.cons_ne_nil _ _))
  case refused =>
    intro refusal hmem
    obtain ⟨hphase, hmoves⟩ := c.of_refused hmem
    exact ⟨hmoves, hphase, posted.order.empty (by rw [hphase]; rfl)⟩
  case failed =>
    intro f hphase
    rw [hphase] at c
    exact c.of_failed
  case succeeded =>
    intro hphase
    rw [hphase] at c
    exact ⟨t.asked (c.close_mem rfl nofun), c.of_ended⟩
  case idle =>
    intro hphase
    have hempty : r.roster.slots = [] := by
      refine posted.order.empty ?_
      rcases hphase with hphase | ⟨result, hphase⟩
      · rw [hphase]
        rfl
      · rw [hphase]
        rfl
    have hboard := posted.board
    rw [hempty] at hboard
    rw [posted.order.post]
    exact ⟨hempty, hboard⟩

end

/-- Shutdown is asked for while a handler is at work. The response is sent and the request
deleted, the consumer ends, and the crew drains, joins its slot and disposes of the handler. -/
def lastRequest : List Event :=
  [.move 1 (.crew .disposed), .move 1 (.crew .joined), .move 1 (.crew (.reap 0)),
    .move 1 (.crew .drained), .move 1 (.crew (.consume 0 (.call .go))),
    .move 1 (.crew (.consume 0 (.call .go))), .move 1 (.crew (.consume 0 (.call .go))),
    .move 1 (.crew (.consume 0 .settle)), .keeper 0,
    .move 1 (.crew (.consume 0 (.answer (.ok "b")))), .move 1 (.crew .close), .cancel 1,
    .move 1 (.crew (.consume 0 (.call .go))), .move 1 (.crew .staff),
    .move 1 (.crew (.started (.ok ()))),
    .join ⟨false, .crew (.create ⟨⟨0, .none⟩, ⟨1, .none⟩, 0, 3750000000⟩ ⟨1, 3000, 1000⟩)⟩,
    .move 0 (.call .go), .join ⟨false, .call (.start ⟨0, .none⟩ (.send "a"))⟩, .board]

/-- A crew has come to its end with its last request answered. -/
theorem lifecycle_lastRequest :
    ∃ past w r,
      (past, w) ∈ World.play [.empty "q" 5000000000, .empty "r" 5000000000] lastRequest ∧
      w.parties[1]? = some ⟨true, .crew r⟩ ∧ w.plant.boards = [⟨0, 1, 0, 0⟩] ∧
      r.roster.phase = .ended (.ok ()) ∧ Crew.Lifecycle 1 past w.plant true r := by
  have hplayed : ∃ run ∈ World.play [.empty "q" 5000000000, .empty "r" 5000000000] lastRequest,
      (∃ party ∈ run.2.parties[1]?, party.isCanceled = true ∧
        ∃ r ∈ party.task.crew?, r.post.board = 0) ∧
      run.2.plant.boards = [⟨0, 1, 0, 0⟩] ∧
      ∀ o ∈ run.1, Crew.Manned 1 ⟨⟨0, .none⟩, ⟨1, .none⟩, 0, 3750000000⟩ ⟨1, 3000, 1000⟩
        o.before o.event := by
    decide
  obtain ⟨⟨past, w⟩, hplay, ⟨⟨isCanceled, task⟩, hparty, rfl, r, hr, -⟩, hboards,
    hallowed⟩ := hplayed
  obtain rfl := Task.crew?_eq_some hr
  have lifecycle := (Run.play hplay hallowed).lifecycle hparty
  have hdisposed : .disposed ∈ Crew.movesOf 1 past := by
    have hmem : .move 1 (.crew .disposed) ∈ past.map Occurrence.event := by
      rw [World.map_event_play hplay]
      exact List.mem_cons_self
    obtain ⟨occ, hocc, hevent⟩ := List.mem_map.mp hmem
    exact List.mem_filterMap.mpr ⟨occ, hocc, by rw [hevent]; rfl⟩
  exact ⟨past, w, r, hplay, hparty, hboards, lifecycle.disposed hdisposed, lifecycle⟩

end Leasework
