import Leasework.Proofs.Work.Tallies

/-!
# `Leasework.Proofs.Work.Audit`: the counters on a board tell the truth

A board is changed by the consumers that work at it, and by nobody else: `Consumer.Step.boards`
gives the whole effect of a step on the boards, and `Agent.Turn.board` that of everything else.
So the counters agree with the record (`Run.chalked`).

The stores keep counters of their own, which are compared with the record elsewhere. Where the
consumers of the board are the only ones to give back and delete requests in one store and to send
to another one, both are about the same iterations, and `Run.audited` compares the board with the
stores.
-/

set_option autoImplicit false

namespace Leasework

open Queue (Call Meter Reply Store)
open Work (Board Command Consumer ConsumerMove Iteration Post)

/-! ### Boards on the plant -/

namespace Plant
variable {p p' : Plant} {b i : Nat}

/-- What is on a board; nothing, if it has not been put up yet. -/
def board (p : Plant) (b : Nat) : Board := p.boards[b]?.getD .blank

theorem board_of_boards (h : p'.boards = p.boards) : p'.board b = p.board b := by
  rw [board, h]
  rfl

theorem board_modify {change : Board → Board} (h : p'.boards = p.boards.modify i change)
    (hi : i = b → b < p.boards.length) :
    p'.board b = if i = b then change (p.board b) else p.board b := by
  unfold board
  rw [h]
  by_cases hb : i = b
  · subst hb
    rw [List.getElem?_modify_eq, List.getElem?_eq_getElem (hi rfl), if_pos rfl]
    rfl
  · rw [List.getElem?_modify_ne _ _ hb, if_neg hb]

theorem board_addBoard : p.addBoard.1.board b = p.board b := by
  unfold board addBoard
  rw [List.getElem?_append]
  split
  · rfl
  · rename_i hb
    rw [List.getElem?_eq_none (Nat.not_lt.mp hb)]
    cases b - p.boards.length <;> rfl

end Plant

/-! ### What a consumer puts on its board -/

namespace Work.Consumer
variable {canceled : Bool} {p p' : Plant} {c c' : Consumer} {move : ConsumerMove}

/-- Whether a consumer has ended with a failure. -/
def hasFailed (c : Consumer) : Bool :=
  match c.exit? with
  | some (.finished (.error _)) => true
  | _ => false

/-- Whether a command of a kind has been settled, and carried out. -/
def carries (command : Command) : Option (Command × Except Queue.Failure Reply) → Bool
  | some (command', .ok _) => command' = command
  | _ => false

/-- What a consumer puts on its board when it becomes another one and has settled a command. -/
def note (c c' : Consumer) (settled : Option (Command × Except Queue.Failure Reply))
    (board : Board) : Board where
  inFlight := board.inFlight + c'.load - c.load
  completed := board.completed + if carries .delete settled then 1 else 0
  returned := board.returned + if carries .giveBack settled then 1 else 0
  failed := board.failed + if c.repeats && c'.hasFailed then 1 else 0

/-- Who works as before, or not at all as before, and settles nothing puts nothing on its board. -/
theorem note_eq_id {settled : Option (Command × Except Queue.Failure Reply)}
    (hload : c'.load = c.load) (hdelete : carries .delete settled = false)
    (hgive : carries .giveBack settled = false) (hfailed : c'.hasFailed = false) :
    note c c' settled = id := by
  funext board
  simp [note, hload, hdelete, hgive, hfailed]

/-- The end of a round is noted, if it is a failure of a consumer that repeats. -/
theorem boards_conclude (p : Plant) (c : Consumer) (result : Result) :
    (conclude p c result).1.boards = p.boards.modify c.post.board fun board =>
      { board with
        failed := board.failed +
          if c.repeats && (conclude p c result).2.hasFailed then 1 else 0 } := by
  unfold conclude
  cases c.repeats with
  | false => exact (List.modify_id _ _).symm
  | true =>
    rcases result with f | (_ | _)
    · rfl
    · exact (List.modify_id _ _).symm
    · exact (List.modify_id _ _).symm

/-- A step of a consumer changes nothing on the boards but what it notes on its own. -/
theorem Step.boards (st : c.Step canceled p move p' c') :
    p'.boards = p.boards.modify c.post.board (note c c' (c.settled? p move)) := by
  -- Most steps put nothing on the board.
  have hquiet : ∀ {settled}, p'.boards = p.boards → c'.load = c.load →
      carries .delete settled = false → carries .giveBack settled = false →
      c'.hasFailed = false →
      p'.boards = p.boards.modify c.post.board (note c c' settled) := by
    intro settled hboards hload hdelete hgive hfailed
    rw [note_eq_id hload hdelete hgive hfailed, List.modify_id, hboards]
  cases st with
  | waited doing made =>
    rw [settled?_of_receiving doing]
    exact hquiet (Plant.boards_stepCall made) (load_of_receiving doing).symm rfl rfl rfl
  | @began call callMove p₁ d rest doing made =>
    rw [settled?_of_receiving doing, ← Plant.boards_stepCall made]
    have hload : (begin p₁ c c.post.requests d).2.load = 1 := rfl
    have hfailed : (begin p₁ c c.post.requests d).2.hasFailed = false := rfl
    show p₁.boards.modify _ .begin = _
    congr 1
    funext board
    simp [note, Board.begin, hload, hfailed, load_of_receiving doing, carries]
  | @unserved call callMove p₁ r result doing made =>
    rw [settled?_of_receiving doing, boards_conclude, Plant.boards_stepCall made]
    congr 1
    funext board
    simp [note, load_conclude, load_of_receiving doing, carries]
  | @proceeded h d k job call call' callMove p₁ doing calling made =>
    obtain ⟨command, hcommand⟩ := Job.exists_command calling
    rw [settled?_of_working doing calling hcommand made]
    exact hquiet (Plant.boards_stepCall made) (load_of_working doing).symm rfl rfl rfl
  | sent doing made =>
    rw [settled?_of_working doing rfl rfl made]
    refine hquiet ?_ (load_of_working doing).symm rfl rfl rfl
    exact (List.modify_id _ _).trans (Plant.boards_stepCall made)
  | unsent doing made =>
    rw [settled?_of_working doing rfl rfl made]
    refine hquiet ?_ (load_of_working doing).symm rfl rfl rfl
    exact (List.modify_id _ _).trans (Plant.boards_stepCall made)
  | @closed h d k job call callMove p₁ r result doing calling made last =>
    obtain ⟨command, hcommand⟩ := Job.exists_command calling
    rw [settled?_of_working doing calling hcommand made, boards_conclude,
      ← Plant.boards_stepCall made]
    -- The board is changed three times: for the command, the end of the work, and the round.
    show ((p₁.boards.modify _ _).modify _ Board.finish).modify _ _ = _
    rw [List.modify_modify_eq, List.modify_modify_eq]
    congr 1
    funext board
    cases job with
    | deleting | returning =>
      cases hcommand
      cases r <;>
        simp [note, load_conclude, load_of_working doing, carries, Queue.Progress.result?,
          Job.credit, Board.complete, Board.giveBack, Board.finish, Except.map]
    -- After a response the work goes on, and without a call it cannot end here.
    | sending => cases r <;> cases last
    | _ => cases calling
  | answered a doing => exact hquiet rfl (load_of_working doing).symm rfl rfl rfl
  | crashed text doing =>
    have hload : (c.leave (.crashed text)).load = 0 := rfl
    have hfailed : (c.leave (.crashed text)).hasFailed = false := rfl
    show p.boards.modify _ .finish = _
    congr 1
    funext board
    simp [note, Board.finish, hload, hfailed, load_of_working doing, settled?, carries]
  | settled doing made =>
    exact hquiet (Plant.boards_collectKeeper made) (load_of_working doing).symm rfl rfl rfl
  | refused doing made =>
    exact hquiet (Plant.boards_collectKeeper made) (load_of_working doing).symm rfl rfl rfl

end Work.Consumer

/-! ### What happens to a board -/

/-- An iteration belongs to a board. -/
def Work.Iteration.IsAt (b : Nat) (x : Iteration) : Prop := x.post.board = b

instance (b : Nat) : DecidablePred (Iteration.IsAt b) := fun x =>
  inferInstanceAs (Decidable (x.post.board = b))

/-- How many iterations of a board are going on. -/
def Agent.busy (b : Nat) (agents : List Agent) : Nat :=
  ((agents.filterMap Agent.stage?).map Prod.fst).countP (Iteration.IsAt b)

/-- Whoever works at a board works at one that has been put up. -/
def Agent.Posted (b n : Nat) (a : Agent) : Prop := ∀ post ∈ a.post?, post.board = b → b < n

section
variable {b : Nat} {p p' : Plant}

theorem Agent.busy_append (agents agents' : List Agent) :
    Agent.busy b (agents ++ agents') = Agent.busy b agents + Agent.busy b agents' := by
  rw [Agent.busy, List.filterMap_append, List.map_append, List.countP_append]
  rfl

theorem Agent.busy_perm {agents agents' : List Agent} (h : agents.Perm agents') :
    Agent.busy b agents = Agent.busy b agents' :=
  ((h.filterMap _).map _).countP_eq _

theorem Work.Consumer.busy_singleton (c : Consumer) :
    Agent.busy b [.consumer c] = if c.post.board = b then c.load else 0 := by
  have hstage : (Agent.consumer c).stage? = c.stage? := rfl
  unfold Agent.busy Consumer.load Consumer.isAtWork
  simp only [List.filterMap_cons, hstage, Consumer.stage?, List.filterMap_nil]
  cases c.activity with
  | working => by_cases hb : c.post.board = b <;> simp [Iteration.IsAt, hb]
  | _ => simp

/-- Dropping an agent takes its request off its board, and changes nothing else. -/
theorem Agent.board_abandon {a : Agent} (posted : a.Posted b p.boards.length) :
    (a.abandon p).boards.length = p.boards.length ∧ (a.abandon p).board b =
      { p.board b with inFlight := (p.board b).inFlight - Agent.busy b [a] } := by
  cases a with
  | consumer c =>
    have hposted : c.post.board = b → b < p.boards.length := posted _ rfl
    rw [Consumer.busy_singleton]
    cases doing : c.activity with
    | working h d k job =>
      have habandon : (c.abandon p).boards = p.boards.modify c.post.board .finish := by
        unfold Consumer.abandon
        rw [doing]
        rfl
      rw [Consumer.load_of_working doing]
      refine ⟨(congrArg List.length habandon).trans (List.length_modify _ _ _), ?_⟩
      refine (Plant.board_modify habandon hposted).trans ?_
      by_cases hb : c.post.board = b
      · rw [if_pos hb, if_pos hb]
        rfl
      · rw [if_neg hb, if_neg hb]
        rfl
    | _ =>
      have habandon : c.abandon p = p := by
        unfold Consumer.abandon
        rw [doing]
      have hload : c.load = 0 := by
        rw [Consumer.load, Consumer.isAtWork, doing]
        rfl
      rw [hload, ite_self]
      exact ⟨congrArg (·.boards.length) habandon, congrArg (Plant.board · b) habandon⟩
  | _ => exact ⟨rfl, rfl⟩

/-- A turn that is no consumer's step takes the requests of those who are dropped off a board, and
changes nothing else there. -/
theorem Agent.Turn.board {before after : List Agent} (t : Agent.Turn p none before p' after)
    (posted : ∀ a ∈ before, a.Posted b p.boards.length) :
    p'.boards.length = p.boards.length ∧ p'.board b =
      { p.board b with inFlight := (p.board b).inFlight - Agent.busy b before } := by
  have hsame : ∀ {before}, p'.boards = p.boards → Agent.busy b before = 0 →
      p'.boards.length = p.boards.length ∧ p'.board b =
        { p.board b with inFlight := (p.board b).inFlight - Agent.busy b before } := by
    intro before hboards hbusy
    rw [hbusy, Plant.board_of_boards hboards, hboards]
    exact ⟨rfl, rfl⟩
  cases t with
  | idle | hired | resumed => exact hsame rfl rfl
  | called made | answered made | awaited made | received made | missed made =>
    exact hsame (Plant.boards_stepCall made) rfl
  | collected made => exact hsame (Plant.boards_collectKeeper made) rfl
  | dropped =>
    -- They go one by one, and each takes its own request off the board.
    clear hsame
    induction before generalizing p with
    | nil => exact ⟨rfl, rfl⟩
    | cons a before ih =>
      rw [List.forall_mem_cons] at posted
      obtain ⟨hlength, hboard⟩ := Agent.board_abandon posted.1
      obtain ⟨hlength', hboard'⟩ := ih (p := a.abandon p) (hlength ▸ posted.2)
      have hbusy : Agent.busy b (a :: before) = Agent.busy b [a] + Agent.busy b before :=
        Agent.busy_append [a] before
      rw [List.foldl_cons, hlength', hboard', hlength, hboard, hbusy, Nat.sub_add_eq]
      exact ⟨rfl, rfl⟩

/-- How many iterations of a board are going on before and after the step of a consumer. -/
theorem Agent.Goes.busy {c c' : Consumer} {agents agents' : List Agent}
    (g : Agent.Goes c c' agents agents') (hpost : c'.post = c.post) :
    ∃ n, Agent.busy b agents = (if c.post.board = b then c.load else 0) + n ∧
      Agent.busy b agents' = (if c.post.board = b then c'.load else 0) + n := by
  obtain ⟨after, rest, hbefore, hafter, hcases⟩ := g
  refine ⟨Agent.busy b rest, ?_, ?_⟩
  · rw [Agent.busy_perm hbefore, ← c.busy_singleton, ← Agent.busy_append]
    rfl
  · rw [Agent.busy_perm hafter, Agent.busy_append, ← hpost]
    rcases hcases with rfl | ⟨rfl, hexit⟩
    · rw [c'.busy_singleton]
    · obtain ⟨exit, hexit⟩ := Option.isSome_iff_exists.mp hexit
      rw [Consumer.load, Consumer.isAtWork_of_exit? hexit]
      split <;> rfl

end

/-! ### The counters and the record -/

/-- The run of a consumer at a board ends with a failure. -/
def Occurrence.Fails (b : Nat) (o : Occurrence) : Prop :=
  ∃ work ∈ o.work?, work.1.post.board = b ∧ work.1.repeats = true ∧ work.2.2.hasFailed = true

instance (b : Nat) : DecidablePred (Occurrence.Fails b) := fun o =>
  inferInstanceAs (Decidable (∃ work ∈ o.work?,
    work.1.post.board = b ∧ work.1.repeats = true ∧ work.2.2.hasFailed = true))

/-- The iterations that have given their requests back, the newest first. -/
def returned (past : List Occurrence) : List Iteration := past.filterMap Occurrence.returned?

/-- The counters on a board agree with the record and with the iterations that are going on. -/
structure Chalked (b : Nat) (past : List Occurrence) (w : World) : Prop where
  completed : (w.plant.board b).completed = (deleted past).countP (Iteration.IsAt b)
  returned : (w.plant.board b).returned = (returned past).countP (Iteration.IsAt b)
  failed : (w.plant.board b).failed = past.countP (Occurrence.Fails b)
  inFlight : (w.plant.board b).inFlight = Agent.busy b w.agents

section
variable {b : Nat} {past : List Occurrence} {w w' : World} {event : Event} {o : Occurrence}

theorem returned_cons (o : Occurrence) (past : List Occurrence) :
    returned (o :: past) = o.returned?.toList ++ returned past := by
  rw [returned, List.filterMap_cons]
  cases o.returned? <;> rfl

/-- What is on record about a step of a consumer whose iteration settles a command. -/
theorem Occurrence.count_carried {c c' : Consumer} {move : ConsumerMove}
    (hwork : o.work? = some (c, move, c')) :
    o.deleted?.toList.countP (Iteration.IsAt b)
        = (if c.post.board = b ∧ Consumer.carries .delete (c.settled? o.before.plant move)
          then 1 else 0) ∧
      o.returned?.toList.countP (Iteration.IsAt b)
        = if c.post.board = b ∧ Consumer.carries .giveBack (c.settled? o.before.plant move)
          then 1 else 0 := by
  have hsettled := Occurrence.settled?_of_work hwork
  unfold deleted? returned?
  cases doing : c.activity with
  | working h d k job =>
    rw [hsettled, Consumer.stage?_of_working doing]
    rcases c.settled? o.before.plant move with _ | ⟨_ | _ | _, _ | _⟩ <;>
      by_cases hb : c.post.board = b <;> simp [Consumer.carries, Iteration.IsAt, hb]
  | _ =>
    have hstage : c.stage? = none := by rw [Consumer.stage?, doing]
    have hnone : c.settled? o.before.plant move = none := by
      unfold Consumer.settled? Consumer.command?
      rw [doing]
      cases move <;> rfl
    rw [hsettled, hstage, hnone]
    simp [Consumer.carries]

/-- An event that is no consumer's step puts nothing on record, and leaves the counters alone but
for the requests being worked on. -/
theorem Chalked.idle (k : Chalked b past w) (hwork : o.work? = none)
    (hboard : w'.plant.board b
      = { w.plant.board b with inFlight := Agent.busy b w'.agents }) :
    Chalked b (o :: past) w' := by
  have hsettled : o.settled? = none := by
    rw [Occurrence.settled?, hwork]
    rfl
  have hfails : ¬ o.Fails b := by
    rw [Occurrence.Fails, hwork]
    simp
  refine ⟨?_, ?_, ?_, by rw [hboard]⟩
  · rw [hboard, deleted_cons, Occurrence.deleted?, hsettled]
    exact k.completed
  · rw [hboard, returned_cons, Occurrence.returned?, hsettled]
    exact k.returned
  · rw [hboard, List.countP_cons_of_neg (by simpa using hfails)]
    exact k.failed

/-- A step of a consumer puts on its board what goes on record. -/
theorem Chalked.worked (k : Chalked b past w) {canceled : Bool} {c c' : Consumer}
    {move : ConsumerMove} (hwork : (⟨w, event, w'⟩ : Occurrence).work? = some (c, move, c'))
    (st : c.Step canceled w.plant move w'.plant c') (goes : Agent.Goes c c' w.agents w'.agents)
    (posted : c.post.board = b → b < w.plant.boards.length) :
    Chalked b (⟨w, event, w'⟩ :: past) w' := by
  have hboard := Plant.board_modify st.boards posted
  obtain ⟨n, hbusy, hbusy'⟩ := goes.busy (b := b) st.post
  obtain ⟨hdeleted, hreturned⟩ := Occurrence.count_carried (b := b) hwork
  have hfails : (⟨w, event, w'⟩ : Occurrence).Fails b
      ↔ c.post.board = b ∧ c.repeats = true ∧ c'.hasFailed = true := by
    rw [Occurrence.Fails, hwork]
    simp
  have hinFlight := k.inFlight
  have hcount : ((⟨w, event, w'⟩ : Occurrence) :: past).countP (Occurrence.Fails b)
      = past.countP (Occurrence.Fails b)
        + if c.post.board = b ∧ c.repeats = true ∧ c'.hasFailed = true then 1 else 0 := by
    rw [List.countP_cons]
    simp only [decide_eq_true_eq, hfails]
  rw [hbusy] at hinFlight
  -- The board is the one of the consumer, or another one, which stays as it is.
  refine ⟨?_, ?_, ?_, ?_⟩
  · rw [deleted_cons, List.countP_append, hdeleted, ← k.completed, hboard]
    by_cases hb : c.post.board = b <;> simp [hb, Consumer.note, Nat.add_comm]
  · rw [returned_cons, List.countP_append, hreturned, ← k.returned, hboard]
    by_cases hb : c.post.board = b <;> simp [hb, Consumer.note, Nat.add_comm]
  · rw [hcount, ← k.failed, hboard]
    by_cases hb : c.post.board = b <;> simp [hb, Consumer.note]
  · rw [hbusy', hboard]
    by_cases hb : c.post.board = b
    · rw [if_pos hb] at hinFlight
      rw [if_pos hb, if_pos hb]
      show (w.plant.board b).inFlight + c'.load - c.load = c'.load + n
      omega
    · rw [if_neg hb] at hinFlight
      rw [if_neg hb, if_neg hb]
      exact hinFlight

/-- Every event keeps the counters in agreement with the record, and takes no board away. -/
theorem Chalked.step (k : Chalked b past w) (h : w.step event = some w')
    (idle : event.JoinsIdle) (posted : ∀ a ∈ w.agents, a.Posted b w.plant.boards.length)
    (assigned : ∀ post handle d, event = .assign post handle d → post.board = b →
      b < w.plant.boards.length) :
    Chalked b (⟨w, event, w'⟩ :: past) w' ∧ w.plant.boards.length ≤ w'.plant.boards.length := by
  rcases World.step_work h with
    ⟨hworker, hwork⟩ | ⟨i, made, canceled, c, move, c', rfl, -, hwork, st, goes⟩
  · have hsame : w'.plant.boards = w.plant.boards →
        Agent.busy b w'.agents = Agent.busy b w.agents →
        Chalked b (⟨w, event, w'⟩ :: past) w' ∧
          w.plant.boards.length ≤ w'.plant.boards.length := by
      intro hboards hbusy
      refine ⟨k.idle hwork ?_, Nat.le_of_eq (congrArg List.length hboards.symm)⟩
      rw [Plant.board_of_boards hboards, hbusy, ← k.inFlight]
    have hturn : ∀ {worker}, worker = none →
        Agent.TurnIn w.plant worker w.agents w'.plant w'.agents →
        Chalked b (⟨w, event, w'⟩ :: past) w' ∧
          w.plant.boards.length ≤ w'.plant.boards.length := by
      rintro worker rfl ⟨before, after, rest, hbefore, hafter, turn⟩
      obtain ⟨hlength, hboard⟩ := turn.board (b := b) fun a ha =>
        posted a (hbefore.mem_iff.mpr (List.mem_append_left _ ha))
      refine ⟨k.idle hwork ?_, Nat.le_of_eq hlength.symm⟩
      -- Whoever has had the turn does no work afterwards.
      have hnone : Agent.busy b after = 0 := by
        rw [Agent.busy, turn.stages_eq_nil]
        rfl
      rw [hboard, k.inFlight, Agent.busy_perm hbefore, Agent.busy_perm hafter,
        Agent.busy_append, Agent.busy_append, hnone, Nat.zero_add, Nat.add_sub_cancel_left]
    cases World.step_cases h with
    | moved turn => exact hturn hworker turn
    | dropped turn => exact hturn rfl turn
    | canceled same => exact hsame rfl (Agent.busy_perm same)
    | kept made => exact hsame (Plant.boards_stepKeeper made) rfl
    | @joined party =>
      refine hsame rfl ?_
      have hnone : party.agents.filterMap Agent.stage? = [] :=
        List.filterMap_eq_nil_iff.mpr idle
      rw [World.agents_append, Agent.busy_append, Agent.busy, Agent.busy, hnone]
      rfl
    | boarded =>
      refine ⟨k.idle hwork ?_, ?_⟩
      · rw [Plant.board_addBoard]
        show w.plant.board b = { w.plant.board b with inFlight := Agent.busy b w.agents }
        rw [← k.inFlight]
      · show _ ≤ (w.plant.boards ++ [Board.blank]).length
        rw [List.length_append]
        exact Nat.le_add_right _ _
    | @assigned post handle d =>
      have hboards : (Consumer.given w.plant post handle d).1.boards
          = w.plant.boards.modify post.board .begin := rfl
      have hposted := assigned post handle d rfl
      have hbusy : Agent.busy b
            (w.parties.flatMap Party.agents
              ++ [Agent.consumer (Consumer.given w.plant post handle d).2])
          = (w.plant.board b).inFlight + if post.board = b then 1 else 0 := by
        rw [Agent.busy_append, Consumer.busy_singleton, k.inFlight]
        rfl
      refine ⟨k.idle hwork ?_, ?_⟩
      · rw [World.agents_append]
        refine (Plant.board_modify hboards hposted).trans ?_
        show _ = { w.plant.board b with inFlight := Agent.busy b (w.parties.flatMap Party.agents
          ++ [Agent.consumer (Consumer.given w.plant post handle d).2]) }
        rw [hbusy]
        split <;> rfl
      · exact Nat.le_of_eq (by rw [hboards, List.length_modify])
    | _ => exact hsame rfl rfl
  · refine ⟨k.worked hwork st goes ?_, ?_⟩
    · obtain ⟨after, rest, hbefore, -, -⟩ := goes
      exact posted _ (hbefore.mem_iff.mpr List.mem_cons_self) _ rfl
    · exact Nat.le_of_eq (by rw [st.boards, List.length_modify])

variable {stores : List Store} {may : World → Event → Prop}

/-- The counters on a board agree with the record in every run in which nobody joins at work, or at
the board before it is put up. -/
theorem Run.chalked (run : Run stores may past w)
    (idle : ∀ w event, may w event → event.JoinsIdle)
    (joined : ∀ w party, may w (.join party) → ∀ a ∈ party.agents, a.Posted b w.plant.boards.length)
    (assigned : ∀ w post handle d, may w (.assign post handle d) → post.board = b →
      b < w.plant.boards.length) :
    Chalked b past w ∧ ∀ a ∈ w.agents, a.Posted b w.plant.boards.length := by
  induction run with
  | start => exact ⟨⟨rfl, rfl, rfl, rfl⟩, List.forall_mem_nil _⟩
  | @step past w w' event before allowed happens ih =>
    obtain ⟨k, posted⟩ := ih
    have hassigned : ∀ post handle d, event = .assign post handle d → post.board = b →
        b < w.plant.boards.length := by
      rintro post handle d rfl
      exact assigned w post handle d allowed
    obtain ⟨k', hlength⟩ := k.step happens (idle _ _ allowed) posted hassigned
    refine ⟨k', fun a ha post hpost hb => Nat.lt_of_lt_of_le ?_ hlength⟩
    rcases World.agent_cases happens ha with
      ha | ⟨party, rfl, ha⟩ | ⟨post', handle, d, rfl, rfl⟩ | ⟨before', after, hbefore, ha, turn⟩
    · exact posted a ha post hpost hb
    · exact joined w party allowed a ha post hpost hb
    · cases hpost
      exact assigned w _ _ _ allowed hb
    · obtain ⟨a₀, ha₀, hpost₀⟩ := turn.post_cases ha hpost
      exact posted a₀ (hbefore a₀ ha₀) post hpost₀ hb

end

/-! ### A board and two stores -/

/-- Whoever takes requests from one store, or sends responses to the other, works at the board, and
nobody else does. -/
def Work.Post.IsOf (q r b : Nat) (post : Post) : Prop :=
  (post.requests.store = q ↔ post.board = b) ∧ (post.responses.store = r ↔ post.board = b)

/-- An iteration on a request of one store, or with a response for the other, is one of the
board. -/
def Work.Iteration.IsOf (q r b : Nat) (x : Iteration) : Prop :=
  (x.handle.store = q ↔ x.post.board = b) ∧ (x.post.responses.store = r ↔ x.post.board = b)

/-- Whoever works does so where it belongs. -/
def Agent.IsOf (q r b : Nat) : Agent → Prop
  | .consumer c => c.post.IsOf q r b ∧ ∀ stage ∈ c.stage?, stage.1.IsOf q r b
  | .crew post => post.IsOf q r b
  | _ => True

/-- Who may join: consumers that have not begun and crews, where they belong and once the board has
been put up, and whoever neither ends deliveries from the one store nor sends to the other. -/
def Agent.MayBelong (q r b n : Nat) : Agent → Prop
  | .consumer c =>
    (∃ post repeats, c = .waiting post repeats) ∧ c.post.IsOf q r b ∧ (c.post.board = b → b < n)
  | .crew post => post.IsOf q r b ∧ (post.board = b → b < n)
  | a => a.Leaves q .deleted ∧ a.Leaves q .returned ∧ a.Leaves r .sent

/-- What may happen: anything at all, but only the consumers of the board give back and delete
what is in the one store, and send to the other. -/
def OnlyShared (q r b : Nat) (w : World) : Event → Prop
  | .join party => ∀ a ∈ party.agents, a.MayBelong q r b w.plant.boards.length
  | .assign post handle _ => post.IsOf q r b ∧ (handle.store = q ↔ post.board = b) ∧
      (post.board = b → b < w.plant.boards.length)
  | _ => True

instance (q r b : Nat) (post : Post) : Decidable (post.IsOf q r b) :=
  inferInstanceAs (Decidable (_ ∧ _))

instance (q r b n : Nat) (a : Agent) : Decidable (a.MayBelong q r b n) :=
  match a with
  | .consumer ⟨post, _, .receiving call⟩ =>
    decidable_of_iff
      (call = Consumer.receive post ∧ post.IsOf q r b ∧ (post.board = b → b < n))
      (by simp [Agent.MayBelong, Consumer.waiting])
  | .consumer ⟨_, _, .working ..⟩ | .consumer ⟨_, _, .ended _⟩ =>
    isFalse (by simp [Agent.MayBelong, Consumer.waiting])
  | .crew post => inferInstanceAs (Decidable (post.IsOf q r b ∧ (post.board = b → b < n)))
  | .caller call => inferInstanceAs (Decidable ((Agent.caller call).Leaves q .deleted ∧
      (Agent.caller call).Leaves q .returned ∧ (Agent.caller call).Leaves r .sent))
  | .receiver call => inferInstanceAs (Decidable ((Agent.receiver call).Leaves q .deleted ∧
      (Agent.receiver call).Leaves q .returned ∧ (Agent.receiver call).Leaves r .sent))
  | .source call => inferInstanceAs (Decidable ((Agent.source call).Leaves q .deleted ∧
      (Agent.source call).Leaves q .returned ∧ (Agent.source call).Leaves r .sent))
  | .collector _ => isTrue ⟨trivial, trivial, trivial⟩

instance (q r b : Nat) (w : World) (event : Event) : Decidable (OnlyShared q r b w event) :=
  match event with
  | .join party => inferInstanceAs (Decidable
      (∀ a ∈ party.agents, a.MayBelong q r b w.plant.boards.length))
  | .assign post handle _ => inferInstanceAs (Decidable
      (post.IsOf q r b ∧ (handle.store = q ↔ post.board = b) ∧
        (post.board = b → b < w.plant.boards.length)))
  | .advance _ | .cancel _ | .inject .. | .observe _ | .keeper _ | .keep .. | .stop _
  | .leave _ | .board | .move .. | .drop _ => isTrue trivial

section
variable {q r b : Nat} {past : List Occurrence} {w w' : World} {event : Event}

theorem Agent.lasting_isOf : Agent.Lasting (Agent.IsOf q r b) := by
  intro p worker before p' after turn hbefore a ha
  rcases turn.after_cases ha with ⟨canceled, c, c', move, rfl, -, rfl, st⟩ |
    ⟨post, rfl, rfl | rfl⟩ | hcalls
  · obtain ⟨hpost, hstage⟩ := hbefore _ List.mem_cons_self
    refine ⟨st.post ▸ hpost, fun ⟨x, isDeleting⟩ hstage' => ?_⟩
    rcases st.iteration_cases hstage' with ⟨wasDeleting, hc⟩ | ⟨hx, hhandle⟩
    · exact hstage (x, wasDeleting) hc
    · rw [Iteration.IsOf, hx, hhandle]
      exact hpost
  · exact hbefore _ List.mem_cons_self
  · exact ⟨hbefore _ List.mem_cons_self, nofun⟩
  · obtain ⟨call, rfl | rfl | rfl⟩ := hcalls <;> trivial

/-- An agent has not begun to work, belongs where it works, and turns no meter unless it is a
consumer. -/
structure Agent.Newcomer (q r b n : Nat) (a : Agent) : Prop where
  idle : a.stage? = none
  inShape : a.InShape
  isOf : a.IsOf q r b
  posted : a.Posted b n
  deletes : a.Leaves q .deleted
  returns : a.Leaves q .returned
  sends : a.Leaves r .sent

theorem Agent.MayBelong.newcomer {a : Agent} {n : Nat} (h : a.MayBelong q r b n) :
    a.Newcomer q r b n := by
  cases a with
  | consumer c =>
    obtain ⟨⟨post, repeats, rfl⟩, hpost, hboard⟩ := h
    refine ⟨rfl, rfl, ⟨hpost, nofun⟩, ?_, trivial, trivial, trivial⟩
    rintro _ ⟨⟩
    exact hboard
  | crew post =>
    refine ⟨rfl, trivial, h.1, ?_, trivial, trivial, trivial⟩
    rintro _ ⟨⟩
    exact h.2
  | _ => exact ⟨rfl, trivial, trivial, nofun, h.1, h.2.1, h.2.2⟩

theorem World.settled_isOf (happens : w.step event = some w')
    (belongs : ∀ a ∈ w.agents, a.IsOf q r b) {x : Iteration}
    {settled : Command × Except Queue.Failure Reply}
    (h : (⟨w, event, w'⟩ : Occurrence).settled? = some (x, settled)) : x.IsOf q r b := by
  rw [World.settled?_eq happens] at h
  simp only [Option.bind_eq_some_iff, Option.map_eq_some_iff] at h
  obtain ⟨⟨c, move⟩, hworker, stage, hstage, _, -, heq⟩ := h
  cases heq
  exact (belongs (.consumer c) (World.mem_of_worker? hworker)).2 stage hstage

variable {stores : List Store}

theorem Run.agents_isOf (run : Run stores (OnlyShared q r b) past w) :
    ∀ a ∈ w.agents, a.IsOf q r b := by
  refine run.lasting Agent.lasting_isOf (fun _ _ allowed a ha => (allowed a ha).newcomer.isOf) ?_
  rintro _ post handle d ⟨hpost, hhandle, -⟩
  refine ⟨hpost, ?_⟩
  rintro _ ⟨⟩
  exact ⟨hhandle, hpost.2⟩

theorem Run.settled_isOf (run : Run stores (OnlyShared q r b) past w) :
    ∀ o ∈ past, ∀ x settled, o.settled? = some (x, settled) → x.IsOf q r b := by
  induction run with
  | start => exact List.forall_mem_nil _
  | step event before allowed happens ih =>
    refine List.forall_mem_cons.mpr ⟨fun x settled h => ?_, ih⟩
    exact World.settled_isOf happens before.agents_isOf h

/-- A meter counts what iterations have settled at its store. If these are the iterations of a
board, it counts those of the board. -/
theorem countP_turned {i : Nat} {m : Meter} {f : Occurrence → Option Iteration}
    {isThere : Iteration → Prop}
    (belongs : ∀ o ∈ past, ∀ x settled, o.settled? = some (x, settled) → x.IsOf q r b)
    (turned : ∀ o : Occurrence, o.turned? = some (i, m) ↔ ∃ x, f o = some x ∧ isThere x)
    (settles : ∀ o x, f o = some x → ∃ settled, o.settled? = some (x, settled))
    (there : ∀ x, x.IsOf q r b → (isThere x ↔ x.IsAt b)) :
    (past.countP fun o => o.turned? = some (i, m))
      = (past.filterMap f).countP (Iteration.IsAt b) := by
  rw [List.countP_filterMap]
  refine List.countP_congr fun o ho => ?_
  rw [decide_eq_true_iff, turned]
  cases hf : f o with
  | none => simp
  | some x =>
    obtain ⟨settled, hsettled⟩ := settles o x hf
    simpa using there x (belongs o ho x settled hsettled)

/-- The responses that were sent and whose requests were not deleted are the others. -/
theorem Recorded.countP_sent (recorded : Recorded past w) (f : Iteration → Bool) :
    (sent past).countP f
      = (deleted past).countP f + ((sent past).filter (· ∉ deleted past)).countP f := by
  have hperm : ((sent past).filter (· ∈ deleted past)).Perm (deleted past) := by
    refine (List.perm_ext_iff_of_nodup (recorded.sent_nodup.filter _)
      recorded.deleted_nodup).mpr fun x => ?_
    rw [List.mem_filter, decide_eq_true_iff]
    exact ⟨And.right, fun hx => ⟨recorded.deleted_sent x hx, hx⟩⟩
  rw [List.countP_eq_countP_filter_add _ f (· ∈ deleted past), hperm.countP_eq]
  simp only [decide_not]

/-- What the board and the two stores count, compared with one another and with the record:

- `completed`, `returned`: the deletions and the returns of the store of the requests;
- `inFlight`: the iterations at the board that have begun and are not over;
- `failed`: the runs of consumers at the board that have ended with a failure;
- `unfinished`: the store of the responses has one response for each request completed, and one
  for each iteration that has sent a response and not deleted its request. -/
structure Audited (b : Nat) (past : List Occurrence) (board : Board) (requests responses : Store) :
    Prop where
  completed : board.completed = requests.tally.deleted
  returned : board.returned = requests.tally.returned
  inFlight : board.inFlight
    = ((begun past).filter (· ∉ ended past)).countP (Iteration.IsAt b)
  failed : board.failed = past.countP (Occurrence.Fails b)
  unfinished : responses.tally.sent = board.completed
    + ((sent past).filter (· ∉ deleted past)).countP (Iteration.IsAt b)

/-- The counters tell the truth: in every run in which only the consumers of a board give back and
delete what is in one store, and send to another. -/
theorem Run.audited {name name' : String} {lease lease' : Nat}
    (hq : stores[q]? = some (.empty name lease)) (hr : stores[r]? = some (.empty name' lease'))
    (run : Run stores (OnlyShared q r b) past w) {board : Board}
    (hb : w.plant.boards[b]? = some board) :
    ∃ requests responses, w.plant.stores[q]? = some requests ∧
      w.plant.stores[r]? = some responses ∧ Audited b past board requests responses := by
  have idle : ∀ w event, OnlyShared q r b w event → event.JoinsIdle := by
    intro w event allowed
    cases event with
    | join party => exact fun a ha => (allowed a ha).newcomer.idle
    | _ => trivial
  have recorded := run.recorded idle
  obtain ⟨k, -⟩ := run.chalked idle (fun _ _ allowed a ha => (allowed a ha).newcomer.posted)
    fun _ _ _ _ allowed => allowed.2.2
  have hboard : w.plant.board b = board := by
    rw [Plant.board, hb]
    rfl
  obtain ⟨requests, hrequests, hdeleted⟩ := run.reading hq (m := .deleted)
    fun _ _ allowed a ha => ⟨(allowed a ha).newcomer.inShape, (allowed a ha).newcomer.deletes⟩
  obtain ⟨_, hrequests', hreturned⟩ := run.reading hq (m := .returned)
    fun _ _ allowed a ha => ⟨(allowed a ha).newcomer.inShape, (allowed a ha).newcomer.returns⟩
  obtain rfl := Option.some.inj (hrequests.symm.trans hrequests')
  obtain ⟨responses, hresponses, hsent⟩ := run.reading hr (m := .sent)
    fun _ _ allowed a ha => ⟨(allowed a ha).newcomer.inShape, (allowed a ha).newcomer.sends⟩
  have belongs := run.settled_isOf
  have hcompleted : board.completed = requests.tally.deleted := by
    rw [← hboard, k.completed]
    refine (hdeleted.trans (countP_turned belongs (fun _ => Occurrence.turned?_deleted)
      (fun _ _ h => ?_) fun _ h => h.1)).symm
    obtain ⟨reply, hsettled⟩ := Occurrence.deleted?_eq_some.mp h
    exact ⟨_, hsettled⟩
  refine ⟨requests, responses, hrequests, hresponses, hcompleted, ?_, ?_, ?_, ?_⟩
  · rw [← hboard, k.returned]
    refine (hreturned.trans (countP_turned belongs (fun _ => Occurrence.turned?_returned)
      (fun _ _ h => ?_) fun _ h => h.1)).symm
    obtain ⟨reply, hsettled⟩ := Occurrence.returned?_eq_some.mp h
    exact ⟨_, hsettled⟩
  · have hperm : w.iterations.Perm ((begun past).filter (· ∉ ended past)) := by
      refine (List.perm_ext_iff_of_nodup ?_ (recorded.begun_nodup.of_map.filter _)).mpr fun x => ?_
      · exact recorded.numbers.of_map
      · rw [List.mem_filter, decide_eq_true_iff]
        exact (run.mem_iterations idle x).2
    rw [← hboard, k.inFlight, ← hperm.countP_eq]
    rfl
  · rw [← hboard, k.failed]
  · have hboth := recorded.countP_sent (Iteration.IsAt b)
    have hall : responses.tally.sent = (sent past).countP (Iteration.IsAt b) := by
      refine hsent.trans (countP_turned belongs (fun _ => Occurrence.turned?_sent)
        (fun _ _ h => ?_) fun _ h => h.2)
      obtain ⟨text, reply, hsettled⟩ := Occurrence.sent?_eq_some.mp h
      exact ⟨_, hsettled⟩
    rw [hall, hboth, ← hboard, k.completed]

end

/-- A consumer that repeats answers a request, and refuses the next one. Another consumer takes that
one, and its response has just been accepted. -/
def halfwayDone : List Event :=
  [.move 3 (.consumer (.call .go)), .move 3 (.consumer .settle), .keeper 2,
    .move 3 (.consumer (.answer (.ok "d"))), .move 3 (.consumer (.call .go)),
    .join ⟨false, .consumer (.waiting ⟨⟨0, .none⟩, ⟨1, .none⟩, 0, 6000000⟩ false)⟩,
    .move 1 (.consumer (.call .go)), .move 1 (.consumer .settle), .keeper 1,
    .move 1 (.consumer (.answer (.error (.failed "no")))), .move 1 (.consumer (.call .go)),
    .move 2 (.call .go), .join ⟨false, .call (.start ⟨0, .none⟩ (.send "c"))⟩,
    .move 1 (.consumer (.call .go)), .move 1 (.consumer (.call .go)),
    .move 1 (.consumer .settle), .keeper 0, .move 1 (.consumer (.answer (.ok "b"))),
    .move 1 (.consumer (.call .go)),
    .join ⟨false, .consumer (.waiting ⟨⟨0, .none⟩, ⟨1, .none⟩, 0, 6000000⟩ true)⟩,
    .move 0 (.call .go), .join ⟨false, .call (.start ⟨0, .none⟩ (.send "a"))⟩, .board]

/-- The counters tell the truth, while one request is completed and another one is in flight. -/
theorem audited_halfwayDone :
    ∃ past w requests responses,
      (past, w) ∈ World.play [.empty "q" 8000000, .empty "r" 8000000] halfwayDone ∧
      w.plant.stores[0]? = some requests ∧ w.plant.stores[1]? = some responses ∧
      responses.tally.sent = 2 ∧ Audited 0 past ⟨1, 1, 1, 1⟩ requests responses := by
  have hplayed : ∃ run ∈ World.play [.empty "q" 8000000, .empty "r" 8000000] halfwayDone,
      run.2.plant.boards[0]? = some ⟨1, 1, 1, 1⟩ ∧
        (∀ s ∈ run.2.plant.stores[1]?, s.tally.sent = 2) ∧
        ∀ o ∈ run.1, OnlyShared 0 1 0 o.before o.event := by decide
  obtain ⟨⟨past, w⟩, hplay, hboard, htwo, hallowed⟩ := hplayed
  obtain ⟨requests, responses, hrequests, hresponses, audited⟩ :=
    Run.audited rfl rfl (Run.play hplay hallowed) hboard
  exact ⟨past, w, requests, responses, hplay, hrequests, hresponses, htwo _ hresponses, audited⟩

end Leasework
