import Leasework.Proofs.Bench.Ledger
import Leasework.Proofs.World.Parties

/-!
# `Leasework.Proofs.Bench.Loopback`: a throughput run on a queue of its own

A throughput run may send to the queue that it receives from. `Bench.Alone` says what its
surroundings are held to: the run joins at a place, nobody stops it, and nobody else makes a call
on its store. Faults may be injected at any moment, time may pass, leases may be renewed, and all
moves may be made in any order.

Such a run loses nothing and receives nothing twice, unless a deletion fails: `Run.loopback`.
-/

set_option autoImplicit false

namespace Leasework

open Queue (Call Orderly Store)

/-! ### Who leaves a store alone -/

/-- An agent makes no call on a store. -/
def Agent.Avoids (q : Nat) (a : Agent) : Prop := ∀ call ∈ a.call?, call.handle.store ≠ q

instance (q : Nat) (a : Agent) : Decidable (a.Avoids q) :=
  inferInstanceAs (Decidable (∀ call ∈ a.call?, call.handle.store ≠ q))

instance (i : Nat) (P : Agent → Prop) [DecidablePred P] (w : World) :
    Decidable (w.Elsewhere i P) :=
  decidable_of_iff (∀ place ∈ w.parties.zipIdx, place.2 ≠ i → ∀ a ∈ place.1.agents, P a) <| by
    constructor
    · intro h j party hparty
      exact h (party, j) (List.mk_mem_zipIdx_iff_getElem?.mpr hparty)
    · rintro h ⟨party, j⟩ hplace
      exact h j party (List.mk_mem_zipIdx_iff_getElem?.mp hplace)

section
variable {w w' : World} {event : Event} {i q : Nat}

/-- If nobody else makes a call on a store, then nothing is sent or deleted there, except by the
party at a place. -/
theorem World.step_aside (o : w.plant.KeepersOrderly) (e : w.Elsewhere i (Agent.Avoids q))
    (h : w.step event = some w') (no_move : ∀ move, event ≠ .move i move)
    (no_drop : event ≠ .drop i) : Plant.Touched q Queue.Deed.IsAside w.plant w'.plant := by
  rcases World.step_outside e h no_move no_drop with ⟨_, _, _, hbefore, turn⟩ | ⟨hmove, hdrop⟩
  · refine (turn.touched q).mono ?_
    rintro deed ⟨a, ha, call, hcall, hstore, -⟩
    exact absurd hstore (hbefore a ha call hcall)
  · refine (World.step_upkeep o h hmove hdrop q).mono fun deed hdeed => ?_
    cases deed with
    | attempt request =>
      obtain ⟨d, rfl⟩ := hdeed
      exact ⟨rfl, rfl⟩
    | _ => trivial

end

/-! ### What may happen around a run -/

/-- The throughput run that a task is about. -/
def Task.bench? : Task → Option Bench.Run
  | .bench r => some r
  | _ => none

theorem Task.bench?_eq_some {task : Task} {r : Bench.Run} (h : task.bench? = some r) :
    task = .bench r := by
  cases task with
  | bench r' =>
    cases h
    rfl
  | _ => cases h

/-- The report of a throughput run that is over. -/
def Task.report? : Task → Option Bench.Report
  | .measured report => some report
  | _ => none

theorem Task.report?_eq_some {task : Task} {report : Bench.Report}
    (h : report ∈ task.report?) : task = .measured report := by
  cases task with
  | measured report' =>
    cases h
    rfl
  | _ => cases h

namespace Bench

deriving instance DecidableEq for Receiver
deriving instance DecidableEq for Tasks
deriving instance DecidableEq for Run

/-- A loop: senders and receivers, some of each, and all on one store. -/
structure Loop (q : Nat) (plan : Plan) (sending receiving : List Queue.Handle) : Prop where
  senders : sending.length = plan.senders
  some_sender : 1 ≤ plan.senders
  some_receiver : receiving ≠ []
  on : ∀ handle ∈ sending ++ receiving, handle.store = q

/-- The event with which a throughput run joins at a place, or one that does not stop it. -/
def Unstopped (i : Nat) (plan : Plan) (sending receiving : List Queue.Handle) (w : World) :
    Event → Prop
  | .join party =>
    w.parties.length = i → party.isCanceled = false ∧
      party.task.bench? = some (.create w.plant plan sending receiving)
  | .assign .. => w.parties.length ≠ i
  | .cancel j => j ≠ i
  | _ => True

instance (i : Nat) (plan : Plan) (sending receiving : List Queue.Handle) (w : World)
    (event : Event) : Decidable (Unstopped i plan sending receiving w event) :=
  match event with
  | .join party =>
    inferInstanceAs (Decidable (w.parties.length = i → party.isCanceled = false ∧
      party.task.bench? = some (.create w.plant plan sending receiving)))
  | .assign .. => inferInstanceAs (Decidable (w.parties.length ≠ i))
  | .cancel j => inferInstanceAs (Decidable (j ≠ i))
  | .advance _ | .inject .. | .observe _ | .keeper _ | .keep .. | .stop _ | .leave _ | .board
  | .move .. | .drop _ => isTrue trivial

/-- What may happen around a throughput run: nobody stops it, and nobody else makes a call on its
store. -/
def Alone (i q : Nat) (plan : Plan) (sending receiving : List Queue.Handle) (w : World)
    (event : Event) : Prop :=
  w.Elsewhere i (Agent.Avoids q) ∧ Unstopped i plan sending receiving w event

instance (i q : Nat) (plan : Plan) (sending receiving : List Queue.Handle) (w : World)
    (event : Event) : Decidable (Alone i q plan sending receiving w event) :=
  inferInstanceAs (Decidable (_ ∧ _))

/-! ### A run in the world -/

/-- Where a throughput run on a store stands: it has not joined, it keeps its books, it is over
and balanced, or it has been dropped. -/
inductive Standing (q total : Nat) (p : Plant) : Option Party → Prop
  | absent {s : Store} (there : p.stores[q]? = some s) (orderly : Orderly s)
      (unsent : s.tally.sent = 0) : Standing q total p none
  | running {s : Store} {r : Run} (there : p.stores[q]? = some s)
      (ledger : Ledger q total s r) : Standing q total p (some ⟨false, .bench r⟩)
  | measured {s : Store} {report : Report} (there : p.stores[q]? = some s)
      (balanced : Balanced total s report) : Standing q total p (some ⟨false, .measured report⟩)
  | dropped {isCanceled : Bool} : Standing q total p (some ⟨isCanceled, .gone⟩)

/-- Whatever is not counted leaves a run where it stands. -/
theorem Standing.aside {q total : Nat} {p p' : Plant} {party : Option Party}
    (st : Standing q total p party) (touched : Plant.Touched q Queue.Deed.IsAside p p') :
    Standing q total p' party := by
  have hstore : ∀ s, p.stores[q]? = some s → Orderly s →
      ∃ s', p'.stores[q]? = some s' ∧ Orderly s' ∧ Store.Counted 0 0 s s' := by
    intro s hs o
    obtain ⟨s', hs', rfl | ⟨deed, outcome, aside, step⟩⟩ := touched s hs
    · exact ⟨s', hs', o, rfl, rfl⟩
    · exact ⟨s', hs', o.step step, step.counted_aside aside⟩
  cases st with
  | absent there orderly unsent =>
    obtain ⟨s', hs', o, counted⟩ := hstore _ there orderly
    refine .absent hs' o ?_
    rw [counted.sent, unsent]
  | running there ledger =>
    obtain ⟨s', hs', o, counted⟩ := hstore _ there ledger.orderly
    exact .running hs' (ledger.later o counted)
  | measured there balanced =>
    obtain ⟨s', hs', o, counted⟩ := hstore _ there balanced.orderly
    refine .measured hs' { balanced with orderly := o, deleted := ?_, cleared := ?_ }
    · rw [counted.deleted, Nat.add_zero, balanced.deleted]
    · rw [counted.sent, counted.deleted, balanced.cleared]
  | dropped => exact .dropped

end Bench

/-- A party that is a throughput run makes a step of the run, or the run is over and measured. -/
theorem Party.step_bench {p p' : Plant} {isCanceled : Bool} {r : Bench.Run} {party' : Party}
    {move : PartyMove} (h : Party.step p ⟨isCanceled, .bench r⟩ move = some (p', party')) :
    (∃ made tasks, move = .bench made ∧ r.Step isCanceled p made p' tasks ∧
        party' = ⟨isCanceled, .bench { r with tasks := tasks }⟩) ∨
      ∃ report, move = .measure ∧ p' = p ∧ r.report? p = some report ∧
        party' = ⟨isCanceled, .measured report⟩ := by
  cases move with
  | bench made =>
    simp only [Party.step, bind, Option.bind_eq_some_iff] at h
    obtain ⟨⟨p₁, r'⟩, hstep, heq⟩ := h
    cases heq
    obtain ⟨tasks, st, rfl⟩ := Bench.Run.step_cases hstep
    exact Or.inl ⟨made, tasks, rfl, st, rfl⟩
  | measure =>
    simp only [Party.step, bind, Option.bind_eq_some_iff] at h
    obtain ⟨report, hreport, heq⟩ := h
    cases heq
    exact Or.inr ⟨report, rfl, rfl, hreport, rfl⟩
  | _ => cases h

/-- The result that a throughput run at a place has come to with an event on record, if the event
is a move of the run. -/
def Occurrence.benchResult? {α : Type} (i : Nat)
    (result? : Bool → Plant → Bench.Run → Bench.Move → Option α) (occ : Occurrence) : Option α :=
  match occ.event, occ.before.parties[i]? with
  | .move j (.bench made), some ⟨isCanceled, .bench r⟩ =>
    if j = i then result? isCanceled occ.before.plant r made else none
  | _, _ => none

namespace Bench

/-- What the sends of a throughput run have come to, the newest first. -/
def sendResults (i : Nat) (past : List Occurrence) : List (Except Queue.Failure Queue.Reply) :=
  past.filterMap (Occurrence.benchResult? i Run.sendResult?)

/-- What the deletions of a throughput run have come to, the newest first. -/
def deleteResults (i : Nat) (past : List Occurrence) : List (Except Queue.Failure Queue.Reply) :=
  past.filterMap (Occurrence.benchResult? i fun _ => Run.deleteResult?)

end Bench

section
variable {i q : Nat} {plan : Bench.Plan} {sending receiving : List Queue.Handle} {w w' : World}
  {event : Event}

theorem Occurrence.benchResult?_of_move {α : Type}
    {result? : Bool → Plant → Bench.Run → Bench.Move → Option α} {isCanceled : Bool}
    {r : Bench.Run} {made : Bench.Move}
    (there : w.parties[i]? = some ⟨isCanceled, .bench r⟩) :
    Occurrence.benchResult? i result? ⟨w, .move i (.bench made), w'⟩
      = result? isCanceled w.plant r made := by
  simp only [benchResult?, there, if_true]

/-- No send of a run that stands where it should ends canceled. -/
theorem Bench.Standing.uncanceled {total : Nat} {occ : Occurrence} {f : Queue.Failure}
    (st : Standing q total occ.before.plant occ.before.parties[i]?)
    (hf : occ.benchResult? i Run.sendResult? = some (.error f)) : f.isCanceled = false := by
  unfold Occurrence.benchResult? at hf
  split at hf
  · rename_i there
    rw [there] at st
    cases st with
    | running hs ledger =>
      split at hf
      · exact ledger.uncanceled hs hf
      · cases hf
  · cases hf

/-- A run that stands where it should does so after every event, if no deletion fails. -/
theorem Bench.Standing.step {total : Nat} (loop : Loop q plan sending receiving)
    (o : w.plant.KeepersOrderly) (allowed : Alone i q plan sending receiving w event)
    (h : w.step event = some w')
    (deleted : ∀ f, Occurrence.benchResult? i (fun _ => Run.deleteResult?) ⟨w, event, w'⟩
      ≠ some (.error f)) (htotal : total = plan.messagesToSend)
    (st : Standing q total w.plant w.parties[i]?) :
    Standing q total w'.plant w'.parties[i]? := by
  subst htotal
  obtain ⟨elsewhere, unstopped⟩ := allowed
  have haside := World.step_aside o elsewhere h
  have hstep := World.step_party h i
  generalize hafter : w'.parties[i]? = after at hstep
  cases hbefore : w.parties[i]? with
  | none =>
    rw [hbefore] at hstep st
    cases hstep with
    | absent =>
      -- Nobody is at the place who could make a move there.
      refine st.aside (haside ?_ ?_)
      · rintro move rfl
        simp only [World.step, hbefore, bind, Option.bind_none, reduceCtorEq] at h
      · rintro rfl
        simp only [World.step, hbefore, bind, Option.bind_none, reduceCtorEq] at h
    | @joined party last same =>
      obtain ⟨isCanceled, task⟩ := party
      obtain ⟨rfl, htask⟩ := unstopped last
      obtain rfl := Task.bench?_eq_some htask
      cases st with
      | absent there orderly unsent =>
        rw [same]
        refine .running there ?_
        rw [Plan.messagesToSend, ← loop.senders]
        refine .create orderly unsent (List.length_pos_iff.mp ?_) loop.some_receiver loop.on
        rw [loop.senders]
        exact loop.some_sender
    | assigned last => exact absurd last unstopped
  | some party =>
    rw [hbefore] at hstep st
    cases hstep with
    | stayed no_cancel no_move no_drop => exact st.aside (haside no_move no_drop)
    | canceled => exact absurd rfl unstopped
    | @moved party party' move made =>
      cases st with
      | @running s r hs ledger =>
        rcases Party.step_bench made with
          ⟨bmove, tasks, rfl, st, rfl⟩ | ⟨report, -, same, hreport, rfl⟩
        · have hdeleted : ∀ f, r.deleteResult? w.plant bmove ≠ some (.error f) := by
            intro f hf
            refine deleted f ?_
            rw [Occurrence.benchResult?_of_move hbefore]
            exact hf
          obtain ⟨s', hs', ledger'⟩ := ledger.step hs st hdeleted
          exact .running hs' ledger'
        · rw [same]
          exact .measured hs (ledger.balanced hreport)
      | measured => cases move <;> cases made
      | dropped => cases move <;> cases made
    | dropped => exact .dropped

/-- A throughput run on a store of its own stands where it should, and none of its sends ends
canceled, if no deletion fails. -/
theorem Run.standing {stores : List Store} {past : List Occurrence} {name : String} {lease : Nat}
    (run : Run stores (Bench.Alone i q plan sending receiving) past w)
    (empty : stores[q]? = some (.empty name lease))
    (loop : Bench.Loop q plan sending receiving)
    (deleted : ∀ result ∈ Bench.deleteResults i past, result.isOk = true) :
    Bench.Standing q plan.messagesToSend w.plant w.parties[i]? ∧
      ∀ f, .error f ∈ Bench.sendResults i past → f.isCanceled = false := by
  induction run with
  | start => exact ⟨.absent empty (.empty name lease) rfl, fun f hmem => by cases hmem⟩
  | @step past w w' event before allowed happens ih =>
    have hpast : ∀ result ∈ Bench.deleteResults i past, result.isOk = true := by
      intro result hmem
      obtain ⟨occ, hocc, hresult⟩ := List.mem_filterMap.mp hmem
      exact deleted result (List.mem_filterMap.mpr ⟨occ, List.mem_cons_of_mem _ hocc, hresult⟩)
    obtain ⟨standing, uncanceled⟩ := ih hpast
    constructor
    · refine standing.step loop before.keepersOrderly allowed happens (fun f hf => ?_) rfl
      cases deleted _ (List.mem_filterMap.mpr ⟨_, List.mem_cons_self, hf⟩)
    · intro f hmem
      obtain ⟨occ, hocc, hresult⟩ := List.mem_filterMap.mp hmem
      rcases List.mem_cons.mp hocc with rfl | hocc
      · exact standing.uncanceled hresult
      · exact uncanceled f (List.mem_filterMap.mpr ⟨occ, hocc, hresult⟩)

end

namespace Bench

/-- What a throughput run has come to that sends to the store it receives from:

- `sends`: no send was canceled;
- `failed`, `sent`: all messages were sent but those whose send failed;
- `expected`, `received`: those that were sent were to be received, and all of them were;
- `store`: as many were deleted, and the store is empty. -/
structure Exact (i q : Nat) (plan : Plan) (past : List Occurrence) (w : World) (report : Report) :
    Prop where
  sends : ∀ f, .error f ∈ sendResults i past → f.isCanceled = false
  failed : report.failedSending ≤ plan.messagesToSend
  sent : report.sent = plan.messagesToSend - report.failedSending
  expected : report.expected = report.sent
  received : report.received = report.expected
  store : ∃ s, w.plant.stores[q]? = some s ∧ s.tally.deleted = report.sent ∧ s.visible = [] ∧
    s.held = []

end Bench

/-- A throughput run on an empty store of its own, which nobody stops: when it is over, it has
received every message that it has sent exactly once, if no deletion has failed. The plan need
not be sound in any other way. -/
theorem Run.loopback {stores : List Store} {past : List Occurrence} {w : World} {i q : Nat}
    {plan : Bench.Plan} {sending receiving : List Queue.Handle} {name : String} {lease : Nat}
    {isCanceled : Bool} {report : Bench.Report}
    (run : Run stores (Bench.Alone i q plan sending receiving) past w)
    (empty : stores[q]? = some (.empty name lease))
    (loop : Bench.Loop q plan sending receiving)
    (deleted : ∀ result ∈ Bench.deleteResults i past, result.isOk = true)
    (ended : w.parties[i]? = some ⟨isCanceled, .measured report⟩) :
    Bench.Exact i q plan past w report := by
  obtain ⟨standing, sends⟩ := run.standing empty loop deleted
  rw [ended] at standing
  cases standing with
  | measured there balanced =>
    obtain ⟨visible, held⟩ := balanced.orderly.eq_nil_of_sent_le (Nat.le_of_eq balanced.cleared)
    exact
      { sends := sends
        failed := balanced.failed
        sent := balanced.sent
        expected := balanced.expected
        received := balanced.received
        store := ⟨_, there, balanced.deleted, visible, held⟩ }

/-- Two messages are to be sent, and the first send fails. The receiver has begun to wait before
that, and gets the second message. -/
def lossyLoop : List Event :=
  [.move 0 .measure, .move 0 (.bench (.clear 0)), .move 0 (.bench (.delete 0 0 .go)),
    .move 0 (.bench (.receive 0 .go)), .move 0 (.bench (.send 1 .go)),
    .move 0 (.bench (.send 0 .go)), .move 0 (.bench (.receive 0 .go)),
    .join ⟨false, .bench
      (.create (.start []) ⟨2, 1, 1, 10, "m"⟩ [⟨0, .none⟩] [⟨0, .none⟩])⟩,
    .inject 0 .send 1]

/-- A run that has lost one send is exact about the other one. -/
theorem loopback_lossyLoop :
    ∃ past w report, (past, w) ∈ World.play [.empty "q" 5000000000] lossyLoop ∧
      w.parties[0]? = some ⟨false, .measured report⟩ ∧ report.received = 1 ∧
      report.failedSending = 1 ∧ Bench.Exact 0 0 ⟨2, 1, 1, 10, "m"⟩ past w report := by
  have hplayed : ∃ run ∈ World.play [.empty "q" 5000000000] lossyLoop,
      (∃ party ∈ run.2.parties[0]?, party.isCanceled = false ∧
        ∃ report ∈ party.task.report?, report.received = 1 ∧ report.failedSending = 1) ∧
      (∀ result ∈ Bench.deleteResults 0 run.1, result.isOk = true) ∧
      ∀ occ ∈ run.1, Bench.Alone 0 0 ⟨2, 1, 1, 10, "m"⟩ [⟨0, .none⟩] [⟨0, .none⟩] occ.before
        occ.event := by
    decide
  obtain ⟨⟨past, w⟩, hplay, ⟨⟨isCanceled, task⟩, hparty, rfl, report, hreport, hreceived,
    hfailed⟩, hdeleted, hallowed⟩ := hplayed
  obtain rfl := Task.report?_eq_some hreport
  have hloop : Bench.Loop 0 ⟨2, 1, 1, 10, "m"⟩ [⟨0, .none⟩] [⟨0, .none⟩] :=
    ⟨rfl, Nat.le_refl 1, by decide, by decide⟩
  exact ⟨past, w, report, hplay, hparty, hreceived, hfailed,
    (Run.play hplay hallowed).loopback rfl hloop hdeleted hparty⟩

end Leasework
