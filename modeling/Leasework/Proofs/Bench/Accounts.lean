import Mathlib.Algebra.GroupWithZero.Nat
import Leasework.Proofs.Bench.Ledger

/-!
# `Leasework.Proofs.Bench.Accounts`: what a throughput run reports

A throughput run counts with three numbers that its sends and receivers change while they are all at
work. Nothing is said here about where its messages go: the queues answer every call as they like, in
any order, and the run may be stopped at any moment, even before it begins. A `Happening` is one
answer or one turn of a receiver, `Run.happen` does with it what the run does, and a `Run.History` is
a run with everything that has happened to it on record. The steps that a run makes on the stores of
a plant are such happenings (`Run.History.step`).

`Tasks.Reckoned` is what every happening keeps. A send has succeeded, has failed or is still going on,
so no more sends fail than there are messages to receive, and no subtraction goes below zero. A
message that was handed over has been counted, or its deletion is still going on, so at the end each
was counted once. `Run.History.addsUp` reads both off a run that is over.
-/

set_option autoImplicit false

namespace Leasework.Bench

open Queue (Call Failure Handle)

/-! ### Happenings -/

/-- Something that happens to a throughput run. -/
inductive Happening where
  /-- A send has come further. -/
  | sending (i : Nat) (call : Call)
  /-- A send has ended. -/
  | sendEnded (i : Nat) (result : Except Failure Unit)
  /-- The wait of a receiver has come further. -/
  | waiting (j : Nat) (call : Call)
  /-- A receiver has got a batch, with a deletion for each of its messages, or none. -/
  | batchEnded (j : Nat) (result : Except Failure (List Call))
  /-- A deletion has come further. -/
  | deleting (j k : Nat) (call : Call)
  /-- A deletion has ended. -/
  | deletionEnded (j k : Nat) (result : Except Failure Unit)
  /-- A receiver has deleted its batch. -/
  | cleared (j : Nat)
  /-- A receiver has rested. -/
  | rested (j : Nat)
  /-- A receiver that rests notices the end of the run. -/
  | quitRest (j : Nat)

/-- What the tasks of a run become when something happens, if that can happen. -/
def Run.happen (isStopped : Bool) (now : Nat) (r : Run) : Happening → Option (Tasks Call)
  | .sending i call =>
    match r.tasks.sends[i]? with
    | some (some _) => some (r.tasks.sendWent i call)
    | _ => none
  | .sendEnded i result => r.tasks.sendEnded i result
  | .waiting j call =>
    match r.tasks.receivers[j]? with
    | some (.waiting _) => some (r.tasks.setReceiver j (.waiting call))
    | _ => none
  | .batchEnded j result => r.tasks.batchEnded j now result
  | .deleting j k call =>
    match r.tasks.receivers[j]? with
    | some (.deleting calls) =>
      match calls[k]? with
      | some (some _) => some (r.tasks.deletionWent j k call)
      | _ => none
    | _ => none
  | .deletionEnded j k _ => r.tasks.deletionEnded j k
  | .cleared j => (r.again j).bind fun call => r.tasks.batchCleared j isStopped call
  | .rested j => (r.again j).bind fun call => r.tasks.rested j now isStopped call
  | .quitRest j => r.tasks.restCanceled j isStopped

/-- The runs of a plan on as many queues as there are handles, with what has happened, the newest
first. A run may be stopped at any moment, and stays stopped. -/
inductive Run.History (plan : Plan) (sending receiving : List Handle) :
    List Happening → Bool → Run → Prop
  /-- The run begins; it may have been stopped before. -/
  | start (p : Plant) (isStopped : Bool) :
      History plan sending receiving [] isStopped (.create p plan sending receiving)
  /-- The run is stopped. -/
  | stopped {past : List Happening} {b : Bool} {r : Run}
      (before : History plan sending receiving past b r) :
      History plan sending receiving past true r
  /-- Something happens. -/
  | happened {past : List Happening} {b : Bool} {r : Run} {now : Nat} {h : Happening}
      {tasks : Tasks Call} (before : History plan sending receiving past b r)
      (happens : r.happen b now h = some tasks) :
      History plan sending receiving (h :: past) b { r with tasks := tasks }

/-- Whether a send has succeeded. -/
def Happening.isSent : Happening → Bool
  | .sendEnded _ (.ok _) => true
  | _ => false

/-- How many messages a receiver has been handed. -/
def Happening.handed : Happening → Nat
  | .batchEnded _ (.ok deletions) => deletions.length
  | _ => 0

theorem handed_sendEnded (i : Nat) (result : Except Failure Unit) :
    Happening.handed (.sendEnded i result) = 0 := rfl

/-- The sends that have succeeded. -/
def sentIn (past : List Happening) : Nat := past.countP Happening.isSent

/-- The messages that receivers have been handed. -/
def handedIn (past : List Happening) : Nat := (past.map Happening.handed).sum

theorem sentIn_cons (h : Happening) (past : List Happening) :
    sentIn (h :: past) = sentIn past + if h.isSent then 1 else 0 := List.countP_cons

theorem handedIn_cons (h : Happening) (past : List Happening) :
    handedIn (h :: past) = h.handed + handedIn past := by
  simp [handedIn]

/-! ### What is still to be counted -/

/-- The messages of a receiver that are still being deleted. -/
def Receiver.undeleted {κ : Type} : Receiver κ → Nat
  | .deleting calls => calls.countP Option.isSome
  | _ => 0

/-- The messages that are still being deleted. -/
def Tasks.undeleted {κ : Type} (t : Tasks κ) : Nat := (t.receivers.map Receiver.undeleted).sum

/-- Another element at a place of a list changes a sum over it by the difference of the two. -/
theorem sum_map_set {α : Type} (f : α → Nat) {l : List α} {i : Nat} {a : α} (h : l[i]? = some a)
    (a' : α) : ((l.set i a').map f).sum + f a = (l.map f).sum + f a' := by
  induction l generalizing i with
  | nil => simp at h
  | cons b l ih =>
    cases i with
    | zero =>
      obtain rfl : b = a := by simpa using h
      simp only [List.set_cons_zero, List.map_cons, List.sum_cons]
      omega
    | succ i =>
      have hrest := ih (i := i) (by simpa using h)
      simp only [List.set_cons_succ, List.map_cons, List.sum_cons]
      omega

/-- The tasks of a run that is to send and to receive so many messages agree with what has happened:

- `left`: a message whose send has failed is not to be received any more;
- `sends`: a send has succeeded, has failed or is still going on;
- `share`: no more is sent than is to be received;
- `received`: a message that was handed over has been counted, or is still being deleted. -/
structure Tasks.Reckoned (planned total : Nat) (past : List Happening) (t : Tasks Call) : Prop where
  toSend : t.toSend = planned
  left : t.counters.toReceive + t.counters.failedSending = total
  sends : sentIn past + t.counters.failedSending + t.sends.countP Option.isSome = planned
  share : planned ≤ total
  received : t.counters.received + t.undeleted = handedIn past

namespace Tasks.Reckoned
variable {planned total now i j k : Nat} {past : List Happening} {isStopped : Bool}
  {t t' : Tasks Call} {call : Call} {h : Happening}

/-- As long as a send is going on, some message is to be received: none of the counters that it may
lower is zero. -/
theorem toReceive_pos (w : t.Reckoned planned total past)
    (there : t.sends[i]? = some (some call)) : 0 < t.counters.toReceive := by
  have hpending : 0 < t.sends.countP Option.isSome :=
    List.countP_pos_iff.mpr ⟨some call, List.mem_of_getElem? there, rfl⟩
  have hleft := w.left
  have hsends := w.sends
  have hshare := w.share
  omega

/-- No more sends have failed than were to be made. -/
theorem failedSending_le (w : t.Reckoned planned total past) :
    t.counters.failedSending ≤ t.toSend := by
  have htoSend := w.toSend
  have hsends := w.sends
  omega

theorem look (w : t.Reckoned planned total past) : t.look.Reckoned planned total past := by
  unfold Tasks.look
  split
  · exact { w with }
  · exact w

/-- A receiver comes to do something else, with as many messages to delete. -/
theorem setReceiver {receiver : Receiver Call} (w : t.Reckoned planned total past)
    (there : t.receivers[j]? = some receiver) (receiver' : Receiver Call)
    (same : receiver'.undeleted = receiver.undeleted) :
    (t.setReceiver j receiver').Reckoned planned total past := by
  refine { w with received := ?_ }
  have hsum := sum_map_set Receiver.undeleted there receiver'
  have hreceived := w.received
  simp only [Tasks.undeleted, Tasks.setReceiver] at hreceived ⊢
  omega

/-- A receiver begins another wait, or is over: it has nothing to delete in either case. -/
theorem nextBatch {receiver : Receiver Call} (w : t.Reckoned planned total past)
    (there : t.receivers[j]? = some receiver) (none_left : receiver.undeleted = 0) (again : Call) :
    (t.nextBatch j isStopped again).Reckoned planned total past := by
  unfold Tasks.nextBatch
  split <;> exact w.setReceiver there _ none_left.symm

/-- A happening that neither sends nor hands over anything. -/
theorem aside (w : t.Reckoned planned total past) (unsent : h.isSent = false)
    (unhanded : h.handed = 0) : t.Reckoned planned total (h :: past) := by
  refine { w with sends := ?_, received := ?_ }
  · rw [sentIn_cons, unsent]
    exact w.sends
  · rw [handedIn_cons, unhanded, Nat.zero_add]
    exact w.received

theorem countP_sends (there : t.sends[i]? = some (some call)) (slot : Option Call) :
    (t.sends.set i slot).countP Option.isSome + 1
      = t.sends.countP Option.isSome + if slot.isSome then 1 else 0 := by
  rw [countP_set_of_getElem? _ there, countP_of_getElem? _ there]
  simp only [Option.isSome_some, if_true]
  omega

theorem sendWent (w : t.Reckoned planned total past) (there : t.sends[i]? = some (some call))
    (call' : Call) : (t.sendWent i call').Reckoned planned total past := by
  refine { w with sends := ?_ }
  have hcount := countP_sends there (some call')
  have hsends := w.sends
  simp only [Tasks.sendWent, Option.isSome_some, if_true] at hcount ⊢
  omega

theorem sendEnded {result : Except Failure Unit} (w : t.Reckoned planned total past)
    (ended : t.sendEnded i result = some t') :
    t'.Reckoned planned total (.sendEnded i result :: past) := by
  unfold Tasks.sendEnded at ended
  split at ended
  case h_2 => cases ended
  rename_i call there
  have hcount := countP_sends there none
  have hsends := w.sends
  simp only [Option.isSome_none, Bool.false_eq_true, if_false] at hcount
  cases result with
  | ok =>
    cases ended
    refine { w with sends := ?_, received := ?_ }
    · rw [sentIn_cons]
      show sentIn past + 1 + t.counters.failedSending
        + (t.sends.set i none).countP Option.isSome = planned
      omega
    · rw [handedIn_cons, handed_sendEnded, Nat.zero_add]
      exact w.received
  | error f =>
    have hpos := w.toReceive_pos there
    have hleft := w.left
    -- The run may look whether it is done after that, which changes no counter.
    have hfailed : Reckoned planned total (.sendEnded i (.error f) :: past)
        { t with sends := t.sends.set i none, counters := t.counters.sendFailed } := by
      refine { w with left := ?_, sends := ?_, received := ?_ }
      · show t.counters.toReceive - 1 + (t.counters.failedSending + 1) = total
        omega
      · rw [sentIn_cons]
        show sentIn past + 0 + (t.counters.failedSending + 1)
          + (t.sends.set i none).countP Option.isSome = planned
        omega
      · rw [handedIn_cons, handed_sendEnded, Nat.zero_add]
        exact w.received
    dsimp only at ended
    split at ended <;> cases ended
    · exact hfailed
    · exact hfailed.look

theorem batchEnded (w : t.Reckoned planned total past) {result : Except Failure (List Call)}
    (ended : t.batchEnded j now result = some t') :
    t'.Reckoned planned total (.batchEnded j result :: past) := by
  unfold Tasks.batchEnded at ended
  split at ended
  case h_2 => cases ended
  rename_i call there
  split at ended <;> cases ended
  · rename_i deletions
    have hsum := sum_map_set Receiver.undeleted there (.deleting (deletions.map some))
    have hall : (deletions.map some).countP Option.isSome = deletions.length := by
      simp [List.countP_map, Function.comp_def]
    have hreceived := w.received
    refine { w with sends := ?_, received := ?_ }
    · rw [sentIn_cons]
      exact w.sends
    · rw [handedIn_cons, Happening.handed]
      simp only [Receiver.undeleted, hall] at hsum
      simp only [Tasks.undeleted, Tasks.setReceiver] at hreceived ⊢
      omega
  · exact (w.setReceiver there .over rfl).aside rfl rfl
  · exact (w.setReceiver there (.resting (now + restTime)) rfl).aside rfl rfl

theorem deletionWent {calls : List (Option Call)} (w : t.Reckoned planned total past)
    (there : t.receivers[j]? = some (.deleting calls)) (begun : calls[k]? = some (some call))
    (call' : Call) : (t.deletionWent j k call').Reckoned planned total past := by
  simp only [Tasks.deletionWent, there]
  refine w.setReceiver there _ ?_
  simp only [Receiver.undeleted]
  rw [countP_set_of_getElem? _ begun, countP_of_getElem? _ begun]
  simp

/-- A message counts as received when its deletion ends, so it goes from one side to the other. -/
theorem deletionEnded (w : t.Reckoned planned total past)
    (ended : t.deletionEnded j k = some t') : t'.Reckoned planned total past := by
  unfold Tasks.deletionEnded at ended
  split at ended
  case h_2 => cases ended
  rename_i calls there
  split at ended
  case h_2 => cases ended
  rename_i call begun
  cases ended
  have hsum := sum_map_set Receiver.undeleted there (.deleting (calls.set k none))
  have hset := countP_set_of_getElem? Option.isSome begun none
  have hcalls := countP_of_getElem? Option.isSome begun
  have hreceived := w.received
  refine { w with received := ?_ }
  simp only [Receiver.undeleted, Option.isSome_none, Option.isSome_some, Bool.false_eq_true,
    if_false, if_true] at hsum hset hcalls
  simp only [Tasks.undeleted, Tasks.setReceiver, Counters.messageReceived] at hreceived ⊢
  omega

theorem batchCleared (w : t.Reckoned planned total past)
    (cleared : t.batchCleared j isStopped call = some t') : t'.Reckoned planned total past := by
  unfold Tasks.batchCleared at cleared
  split at cleared
  case h_2 => cases cleared
  rename_i calls there
  split at cleared <;> cases cleared
  rename_i all
  have hthere : t.look.receivers[j]? = some (.deleting calls) := by
    unfold Tasks.look
    split <;> exact there
  refine w.look.nextBatch hthere ?_ call
  simp only [Receiver.undeleted, List.countP_eq_zero]
  intro slot hslot
  have hnone := List.all_eq_true.mp all slot hslot
  simpa using hnone

theorem rested (w : t.Reckoned planned total past)
    (ended : t.rested j now isStopped call = some t') : t'.Reckoned planned total past := by
  unfold Tasks.rested at ended
  split at ended
  case h_2 => cases ended
  rename_i till there
  split at ended <;> cases ended
  exact w.nextBatch there rfl call

theorem restCanceled (w : t.Reckoned planned total past)
    (ended : t.restCanceled j isStopped = some t') : t'.Reckoned planned total past := by
  unfold Tasks.restCanceled at ended
  split at ended
  case h_2 => cases ended
  rename_i till there
  split at ended <;> cases ended
  exact w.setReceiver there .over rfl

end Tasks.Reckoned

/-! ### A run from its first happening to its end -/

section
variable {plan : Plan} {sending receiving : List Handle} {past : List Happening}
  {isStopped : Bool} {planned total now : Nat} {r : Run} {tasks : Tasks Call} {h : Happening}

/-- Whatever happens, the tasks agree with it. -/
theorem Run.reckoned_happen (w : r.tasks.Reckoned planned total past)
    (happens : r.happen isStopped now h = some tasks) :
    tasks.Reckoned planned total (h :: past) := by
  cases h with
  | sending i call =>
    simp only [Run.happen] at happens
    split at happens <;> cases happens
    rename_i there
    exact (w.sendWent there call).aside rfl rfl
  | sendEnded i result => exact w.sendEnded happens
  | waiting j call =>
    simp only [Run.happen] at happens
    split at happens <;> cases happens
    rename_i there
    exact (w.setReceiver there (.waiting call) rfl).aside rfl rfl
  | batchEnded j result => exact w.batchEnded happens
  | deleting j k call =>
    simp only [Run.happen] at happens
    split at happens
    case h_2 => cases happens
    rename_i calls there
    split at happens <;> cases happens
    rename_i begun
    exact (w.deletionWent there begun call).aside rfl rfl
  | deletionEnded j k => exact (w.deletionEnded happens).aside rfl rfl
  | cleared j =>
    obtain ⟨call, -, cleared⟩ := Option.bind_eq_some_iff.mp happens
    exact (w.batchCleared cleared).aside rfl rfl
  | rested j =>
    obtain ⟨call, -, ended⟩ := Option.bind_eq_some_iff.mp happens
    exact (w.rested ended).aside rfl rfl
  | quitRest j => exact (w.restCanceled happens).aside rfl rfl

/-- All senders together send their shares of the count. -/
theorem Run.toSend_create (p : Plant) (plan : Plan) (sending receiving : List Handle) :
    (Run.create p plan sending receiving).tasks.toSend
      = sending.length * (plan.count / sending.length) := by
  cases sending with
  | nil => simp [Run.create, Tasks.create]
  | cons handle rest =>
    show rounded plan.count ((rest.map _).length + 1) = _
    rw [List.length_map, List.length_cons, rounded, if_neg (Nat.succ_ne_zero _), Nat.mul_comm]

/-- At the start nothing has been counted, and every sender has its share before it. -/
theorem Run.reckoned_create (p : Plant) (plan : Plan) (sending receiving : List Handle) :
    (Run.create p plan sending receiving).tasks.Reckoned
      (sending.length * (plan.count / sending.length)) (rounded plan.count sending.length) [] := by
  have htoSend := Run.toSend_create p plan sending receiving
  refine { toSend := htoSend, left := ?_, sends := ?_, share := ?_, received := ?_ }
  · simp [Run.create, Tasks.create]
  · show 0 + 0 + (Run.create p plan sending receiving).tasks.sends.countP Option.isSome = _
    have hshares := Ledger.countP_shares
      ((Run.create p plan sending receiving).tasks.toSend / sending.length)
      (sending.map fun handle => .start handle (.send plan.message))
    rw [List.length_map, htoSend] at hshares
    simp only [Run.create, Tasks.create, List.length_map] at htoSend ⊢
    rw [htoSend, hshares, Nat.zero_add]
    -- Without any sender both sides are zero.
    cases sending with
    | nil => simp
    | cons handle rest => rw [Nat.mul_div_cancel_left _ (by simp)]
  · unfold rounded
    split
    · simp [*]
    · exact Nat.le_of_eq (Nat.mul_comm _ _)
  · have hwaiting : (Run.create p plan sending receiving).tasks.undeleted = 0 := by
      simp [Run.create, Tasks.create, Tasks.undeleted, Receiver.undeleted, Function.comp_def]
    rw [hwaiting]
    rfl

/-- The tasks of a run agree with what has happened to it. -/
theorem Run.History.reckoned (run : History plan sending receiving past isStopped r) :
    r.tasks.Reckoned (sending.length * (plan.count / sending.length))
      (rounded plan.count sending.length) past := by
  induction run with
  | start p => exact Run.reckoned_create p plan sending receiving
  | stopped _ ih => exact ih
  | happened _ happens ih => exact Run.reckoned_happen ih happens

/-! ### Runs on a plant -/

/-- The stores of a plant answer in one of the ways in which queues may. -/
theorem Run.Step.happens {p p' : Plant} {move : Move} (st : Step isStopped p r move p' tasks) :
    ∃ now h, r.happen isStopped now h = some tasks := by
  cases st with
  | @sending i _ _ call' _ there =>
    exact ⟨p.now, .sending i call', by simp only [Run.happen, there, Tasks.sendWent]⟩
  | @sent i _ _ _ _ there =>
    exact ⟨p.now, .sendEnded i (.ok ()), by simp only [Run.happen, Tasks.sendEnded, there]⟩
  | @unsent i _ _ _ f there =>
    refine ⟨p.now, .sendEnded i (.error f), ?_⟩
    simp only [Run.happen, Tasks.sendEnded, there, Tasks.sendFailed]
  | @awaiting j _ _ call' _ there =>
    exact ⟨p.now, .waiting j call', by simp only [Run.happen, there]⟩
  | @received j _ call _ reply there =>
    refine ⟨p.now, .batchEnded j (.ok (deletions call.handle reply)), ?_⟩
    simp only [Run.happen, Tasks.batchEnded, there]
  | @quit j _ _ _ there =>
    exact ⟨p.now, .batchEnded j (.error .canceled), by
      simp only [Run.happen, Tasks.batchEnded, there]⟩
  | @missed j _ _ p' f there made uncanceled =>
    refine ⟨p'.now, .batchEnded j (.error f), ?_⟩
    cases f with
    | canceled => exact absurd rfl uncanceled
    | _ => simp only [Run.happen, Tasks.batchEnded, there]
  | @deleting j k _ _ _ call' _ there begun =>
    exact ⟨p.now, .deleting j k call', by
      simp only [Run.happen, there, begun, Tasks.deletionWent]⟩
  | @deleted j k _ _ _ _ result there begun =>
    refine ⟨p.now, .deletionEnded j k (result.map fun _ => ()), ?_⟩
    simp only [Run.happen, Tasks.deletionEnded, there, begun, Tasks.messageReceived,
      Tasks.setReceiver]
  | @cleared j _ _ there all next =>
    exact ⟨p.now, .cleared j, by
      simp only [Run.happen, next, Option.bind_some, Tasks.batchCleared, there, all, if_true]⟩
  | @rested j _ _ there late next =>
    exact ⟨p.now, .rested j, by
      simp only [Run.happen, next, Option.bind_some, Tasks.rested, there, late, if_true]⟩
  | @quitRest j _ there asked =>
    refine ⟨p.now, .quitRest j, ?_⟩
    simp only [Run.happen, Tasks.restCanceled, there]
    exact if_pos asked

/-- A run that makes a step on a plant has something more on record. -/
theorem Run.History.step {p p' : Plant} {move : Move} {r' : Run}
    (run : History plan sending receiving past isStopped r)
    (made : r.step isStopped p move = some (p', r')) :
    ∃ h, History plan sending receiving (h :: past) isStopped r' := by
  obtain ⟨tasks, st, rfl⟩ := Run.step_cases made
  obtain ⟨now, h, happens⟩ := st.happens
  exact ⟨h, run.happened happens⟩

/-- Makes moves on a plant, the first one first. -/
def Run.playAll (isStopped : Bool) : List Move → Plant × Run → Option (Plant × Run)
  | [], state => some state
  | move :: rest, (p, r) => (r.step isStopped p move).bind (playAll isStopped rest)

/-- Whatever moves a run makes on a plant, it has a record. -/
theorem Run.History.playAll {moves : List Move} {p p' : Plant} {r' : Run}
    (run : History plan sending receiving past isStopped r)
    (made : Run.playAll isStopped moves (p, r) = some (p', r')) :
    ∃ past', History plan sending receiving past' isStopped r' := by
  induction moves generalizing past p r with
  | nil =>
    cases made
    exact ⟨past, run⟩
  | cons move rest ih =>
    obtain ⟨⟨p₁, r₁⟩, hstep, hrest⟩ := Option.bind_eq_some_iff.mp made
    obtain ⟨h, run₁⟩ := run.step hstep
    exact ih run₁ hrest

/-! ### What a run comes to -/

/-- A run adds up with what has happened to it, in every state and in its report:

- `live`: what is still to be received and what could not be sent make up the count, rounded down to
  a multiple of the senders, or the count itself without any sender;
- `failing`: a send that fails takes one message from those that are to be received, so there is one;
- `failed`: no more sends have failed than were to be made, so their number can be taken away;
- `sends`: sends that succeeded and sends that failed are the shares of all senders together;
- `expected`: what was to be received in the end is the rounded count without the sends that failed;
- `carried`: the messages sent are the sends that have succeeded;
- `received`: the messages received are those that receivers were handed, each of them once, whatever
  became of its deletion. -/
structure AddsUp (plan : Plan) (senders : Nat) (past : List Happening) (isStopped : Bool) (r : Run) :
    Prop where
  live : r.tasks.counters.toReceive + r.tasks.counters.failedSending
    = if senders = 0 then plan.count else plan.count - plan.count % senders
  failing : ∀ now i f tasks, r.happen isStopped now (.sendEnded i (.error f)) = some tasks →
    tasks.counters.toReceive + 1 = r.tasks.counters.toReceive
  failed : r.tasks.counters.failedSending ≤ r.tasks.toSend
  sends : ∀ p report, r.report? p = some report →
    report.sent + report.failedSending = senders * (plan.count / senders)
  expected : ∀ p report, r.report? p = some report → report.expected + report.failedSending
    = if senders = 0 then plan.count else plan.count - plan.count % senders
  carried : ∀ p report, r.report? p = some report → report.sent = sentIn past
  received : ∀ p report, r.report? p = some report → report.received = handedIn past

/-- Rounding takes the remainder away. -/
theorem rounded_eq (count senders : Nat) :
    rounded count senders = if senders = 0 then count else count - count % senders := by
  unfold rounded
  have hdiv := Nat.div_add_mod count senders
  rw [Nat.mul_comm] at hdiv
  split
  · rfl
  · omega

/-- A send that fails lowers the number of messages to receive by one, and by no less. -/
theorem Tasks.Reckoned.toReceive_sendEnded {t t' : Tasks Call} {planned i : Nat} {f : Failure}
    (w : t.Reckoned planned total past) (ended : t.sendEnded i (.error f) = some t') :
    t'.counters.toReceive + 1 = t.counters.toReceive := by
  have hafter := (w.sendEnded ended).left
  have hbefore := w.left
  have hfailed : t'.counters.failedSending = t.counters.failedSending + 1 := by
    unfold Tasks.sendEnded at ended
    split at ended
    case h_2 => cases ended
    dsimp only at ended
    unfold Tasks.look at ended
    split at ended <;> cases ended
    · rfl
    · split <;> rfl
  omega

/-- When a run is over, no send is going on and no message is being deleted. -/
theorem Tasks.idle_of_areOver {t : Tasks Call} (h : t.areOver = true) :
    t.sends.countP Option.isSome = 0 ∧ t.undeleted = 0 := by
  obtain ⟨hsends, hreceivers⟩ := Bool.and_eq_true_iff.mp h
  constructor
  · rw [List.countP_eq_zero]
    intro slot hslot
    have hnone := List.all_eq_true.mp hsends slot hslot
    simpa using hnone
  · refine List.sum_eq_zero_iff_forall_eq_nat.mpr fun n hn => ?_
    obtain ⟨receiver, hmem, rfl⟩ := List.mem_map.mp hn
    have hover := List.all_eq_true.mp hreceivers receiver hmem
    cases receiver
    case waiting | resting | deleting => cases hover
    rfl

/-- A report is made of the counters of a run in which nothing is going on any more. -/
theorem Run.eq_of_report? {p : Plant} {report : Report} (h : r.report? p = some report) :
    report.sent = r.tasks.toSend - r.tasks.counters.failedSending ∧
      report.failedSending = r.tasks.counters.failedSending ∧
      report.expected = r.tasks.counters.toReceive ∧
      report.received = r.tasks.counters.received ∧
      r.tasks.sends.countP Option.isSome = 0 ∧ r.tasks.undeleted = 0 := by
  unfold Run.report? at h
  split at h
  · rename_i hover
    cases h
    exact ⟨rfl, rfl, rfl, rfl, Tasks.idle_of_areOver hover⟩
  · cases h

/-- A throughput run adds up, whatever its plan is, sound or not, however many queues it sends to and
receives from, whatever they answer, and whenever it is stopped. -/
theorem Run.History.addsUp (run : History plan sending receiving past isStopped r) :
    AddsUp plan sending.length past isStopped r := by
  have w := run.reckoned
  have hleft := w.left
  have hfailed := w.failedSending_le
  rw [rounded_eq] at hleft
  have hsends := w.sends
  have htoSend := w.toSend
  have hreceived := w.received
  refine
    { live := hleft
      failing := fun now i f tasks ended => w.toReceive_sendEnded (i := i) (f := f) ended
      failed := hfailed
      sends := ?_
      expected := ?_
      carried := ?_
      received := ?_ }
  · intro p report h
    obtain ⟨hsent, hlost, -⟩ := Run.eq_of_report? h
    omega
  · intro p report h
    obtain ⟨-, hlost, hexpected, -⟩ := Run.eq_of_report? h
    omega
  · intro p report h
    obtain ⟨hsent, -, -, -, hidle, -⟩ := Run.eq_of_report? h
    omega
  · intro p report h
    obtain ⟨-, -, -, hcount, -, hidle⟩ := Run.eq_of_report? h
    omega

/-- Two senders have five messages to send, and send four. The first send fails, three messages are
received, and the deletion of one of them fails. -/
def lossyMoves : List Move :=
  [.receive 0 .go, .send 0 .go, .send 1 .go, .send 2 .go, .send 3 .go, .receive 0 .go,
    .delete 0 0 .go, .delete 0 1 .go, .delete 0 2 .go, .clear 0]

/-- A run that has lost a send and could not delete a message adds up. -/
theorem addsUp_lossyMoves :
    ∃ past p r report,
      Run.History ⟨5, 2, 1, 10, "m"⟩ [⟨0, .none⟩, ⟨0, .none⟩] [⟨0, .none⟩] past false r ∧
        r.report? p = some report ∧ report.sent = 3 ∧ report.failedSending = 1 ∧
        report.expected = 3 ∧ report.received = 3 ∧
        AddsUp ⟨5, 2, 1, 10, "m"⟩ 2 past false r := by
  have hplayed : ∃ state ∈ Run.playAll false lossyMoves
      (.start [((Queue.Store.empty "q" 5000000000).inject .send 1).inject .delete 1],
        .create (.start []) ⟨5, 2, 1, 10, "m"⟩ [⟨0, .none⟩, ⟨0, .none⟩] [⟨0, .none⟩]),
      ∃ report ∈ state.2.report? state.1, report.sent = 3 ∧ report.failedSending = 1 ∧
        report.expected = 3 ∧ report.received = 3 := by
    decide
  obtain ⟨⟨p, r⟩, hmoves, report, hreport, hsent, hfailed, hexpected, hreceived⟩ := hplayed
  obtain ⟨past, run⟩ := (Run.History.start (.start []) false).playAll hmoves
  exact ⟨past, p, r, report, run, hreport, hsent, hfailed, hexpected, hreceived, run.addsUp⟩

end

end Leasework.Bench
