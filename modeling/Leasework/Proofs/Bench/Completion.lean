import Leasework.Proofs.Bench.Loopback

/-!
# `Leasework.Proofs.Bench.Completion`: when a throughput run is done

A throughput run need not use the stores of a plant. `Run.Turn` says what it does on queues that
answer its calls as they like, in any order, and that end a call canceled only when the run is
done or has been stopped. On the stores of a plant its steps are turns (`Run.Step.turn`), so a run
in a world has been led to where it is by turns (`Run.leads`).

Two counters decide whether a run is done, and sends and receivers change one of them each. A send
that fails looks at them at once, in the same turn. A receiver looks once its whole batch is
deleted. So whenever the counters say that the run is done, either it is, or some receiver still
has its look to come: that is `Tasks.Watched`, which every turn keeps, and from which
`Run.completion` follows.
-/

set_option autoImplicit false

namespace Leasework

open Queue (Call Failure)

namespace Bench

/-! ### Queues that answer as they like -/

/-- What a step of a throughput run may come to, whatever its queues answer. A send or a receiver
ends canceled only if it has been. -/
inductive Run.Turn (isStopped : Bool) (now : Nat) (r : Run) : Tasks Call → Prop
  | sendWent {i : Nat} {call call' : Call} (there : r.tasks.sends[i]? = some (some call)) :
      Turn isStopped now r (r.tasks.sendWent i call')
  | sendEnded {i : Nat} {result : Except Failure Unit} {tasks : Tasks Call}
      (asked : result = .error .canceled → r.isCanceled isStopped = true)
      (ended : r.tasks.sendEnded i result = some tasks) : Turn isStopped now r tasks
  | waited {j : Nat} {call call' : Call} (there : r.tasks.receivers[j]? = some (.waiting call)) :
      Turn isStopped now r (r.tasks.setReceiver j (.waiting call'))
  | batchEnded {j : Nat} {result : Except Failure (List Call)} {tasks : Tasks Call}
      (asked : result = .error .canceled → r.isCanceled isStopped = true)
      (ended : r.tasks.batchEnded j now result = some tasks) : Turn isStopped now r tasks
  | deletionWent {j k : Nat} {calls : List (Option Call)} {call call' : Call}
      (there : r.tasks.receivers[j]? = some (.deleting calls))
      (begun : calls[k]? = some (some call)) :
      Turn isStopped now r (r.tasks.deletionWent j k call')
  | deletionEnded {j k : Nat} {tasks : Tasks Call}
      (ended : r.tasks.deletionEnded j k = some tasks) : Turn isStopped now r tasks
  | batchCleared {j : Nat} {call : Call} {tasks : Tasks Call} (next : r.again j = some call)
      (cleared : r.tasks.batchCleared j isStopped call = some tasks) : Turn isStopped now r tasks
  | rested {j : Nat} {call : Call} {tasks : Tasks Call} (next : r.again j = some call)
      (ended : r.tasks.rested j now isStopped call = some tasks) : Turn isStopped now r tasks
  | restCanceled {j : Nat} {tasks : Tasks Call}
      (ended : r.tasks.restCanceled j isStopped = some tasks) : Turn isStopped now r tasks

/-- Turns lead from one throughput run to another one. It may be stopped at any moment, and stays
stopped. -/
inductive Run.Leads (isStopped : Bool) (r : Run) : Bool → Run → Prop
  | here : Leads isStopped r isStopped r
  | stopped {b : Bool} {r' : Run} (before : Leads isStopped r b r') : Leads isStopped r true r'
  | turned {b : Bool} {now : Nat} {r' : Run} {tasks : Tasks Call}
      (before : Leads isStopped r b r') (turn : r'.Turn b now tasks) :
      Leads isStopped r b { r' with tasks := tasks }

/-- The stores of a plant answer in one of the ways in which queues may. -/
theorem Run.Step.turn {isStopped : Bool} {p p' : Plant} {r : Run} {move : Move}
    {tasks : Tasks Call} (st : r.Step isStopped p move p' tasks) :
    ∃ now, r.Turn isStopped now tasks := by
  cases st with
  | sending there => exact ⟨p.now, .sendWent there⟩
  | @sent i _ call _ _ there =>
    refine ⟨p.now, @Run.Turn.sendEnded _ _ _ i (.ok ()) _ (by simp) ?_⟩
    simp only [Tasks.sendEnded, there]
  | @unsent i _ call _ f there made =>
    obtain ⟨_, _, -, st, -⟩ := Plant.stepCall_cases made
    refine ⟨p.now, @Run.Turn.sendEnded _ _ _ i (.error f) _ ?_ ?_⟩
    · rintro ⟨⟩
      exact st.asked rfl
    · simp only [Tasks.sendEnded, there, Tasks.sendFailed]
  | awaiting there => exact ⟨p.now, .waited there⟩
  | @received j _ call _ reply there =>
    refine ⟨p.now, @Run.Turn.batchEnded _ _ _ j (.ok (deletions call.handle reply)) _ (by simp) ?_⟩
    simp only [Tasks.batchEnded, there]
  | @quit j _ call _ there made =>
    obtain ⟨_, _, -, st, -⟩ := Plant.stepCall_cases made
    have asked := st.asked rfl
    refine ⟨p.now, @Run.Turn.batchEnded _ _ _ j (.error .canceled) _ (fun _ => asked) ?_⟩
    simp only [Tasks.batchEnded, there]
  | @missed j _ call p' f there made uncanceled =>
    refine ⟨p'.now, @Run.Turn.batchEnded _ _ _ j (.error f) _ ?_ ?_⟩
    · rintro ⟨⟩
      exact absurd rfl uncanceled
    · cases f with
      | canceled => exact absurd rfl uncanceled
      | _ => simp only [Tasks.batchEnded, there]
  | @deleting j k _ calls _ call' _ there begun =>
    have hset : r.tasks.setReceiver j (.deleting (calls.set k (some call')))
        = r.tasks.deletionWent j k call' := by
      simp only [Tasks.deletionWent, there]
    rw [hset]
    exact ⟨p.now, .deletionWent there begun⟩
  | @deleted j k _ _ _ _ _ there begun =>
    refine ⟨p.now, .deletionEnded (j := j) (k := k) ?_⟩
    simp only [Tasks.deletionEnded, there, begun, Tasks.messageReceived, Tasks.setReceiver]
  | cleared there all next =>
    refine ⟨p.now, .batchCleared next ?_⟩
    simp only [Tasks.batchCleared, there, all, if_true]
  | rested there late next =>
    refine ⟨p.now, .rested next ?_⟩
    simp only [Tasks.rested, there, late, if_true]
  | @quitRest j _ there asked =>
    refine ⟨p.now, .restCanceled (j := j) ?_⟩
    simp only [Tasks.restCanceled, there]
    exact if_pos asked

/-! ### Who looks at the counters -/

/-- The tasks of a run that is to receive so many messages unless sends fail:

- `left`: a message whose sending has failed is not to be received any more;
- `sends`: no more sends can fail than there are messages to receive;
- `kept`: the run stays done;
- `done`: once it is, as many messages have been received as are to be received;
- `ended`: no receiver has ended before the run is done or has been stopped;
- `look`: if as many have been received, the run is done, or a receiver is still to look. -/
structure Tasks.Watched (total : Nat) (wasDone isStopped : Bool) {κ : Type} (t : Tasks κ) :
    Prop where
  left : t.counters.toReceive + t.counters.failedSending = total
  sends : t.sends.countP Option.isSome + t.counters.failedSending ≤ total
  kept : wasDone = true → t.isDone = true
  done : t.isDone = true → t.counters.toReceive ≤ t.counters.received
  some_receiver : t.receivers ≠ []
  ended : .over ∈ t.receivers → (t.isDone || isStopped) = true
  look : t.counters.toReceive ≤ t.counters.received →
    t.isDone = true ∨ ∃ calls, .deleting calls ∈ t.receivers

namespace Tasks.Watched
variable {total : Nat} {wasDone isStopped : Bool} {κ : Type} {t t' : Tasks κ} {i j k now : Nat}
  {call : κ}

theorem stopped (h : t.Watched total wasDone isStopped) : t.Watched total wasDone true :=
  { h with ended := fun _ => Bool.or_true _ }

/-- A receiver comes to do something else. If it was deleting and is not any more, the run must
be done, or have more to receive. -/
theorem setReceiver (h : t.Watched total wasDone isStopped) {receiver receiver' : Receiver κ}
    (there : t.receivers[j]? = some receiver)
    (hover : receiver' = .over → (t.isDone || isStopped) = true)
    (hlook : (∃ calls, receiver = .deleting calls) → (∃ calls, receiver' = .deleting calls) ∨
      (t.counters.toReceive ≤ t.counters.received → t.isDone = true)) :
    (t.setReceiver j receiver').Watched total wasDone isStopped := by
  have hj : j < t.receivers.length := (List.getElem?_eq_some_iff.mp there).1
  refine { h with some_receiver := ?_, ended := ?_, look := ?_ }
  · intro hnil
    have hlength := congrArg List.length hnil
    rw [Tasks.setReceiver, List.length_set, List.length_nil] at hlength
    omega
  · intro hmem
    rcases List.mem_or_eq_of_mem_set hmem with hmem | heq
    · exact h.ended hmem
    · exact hover heq.symm
  · intro hdone
    rcases h.look hdone with hdone' | ⟨calls, hmem⟩
    · exact Or.inl hdone'
    · obtain ⟨k, hk⟩ := List.mem_iff_getElem?.mp hmem
      by_cases hjk : j = k
      · -- The receiver that was still to look is the one that goes on.
        subst hjk
        obtain rfl : receiver = .deleting calls := Option.some.inj (there.symm.trans hk)
        rcases hlook ⟨calls, rfl⟩ with ⟨calls', rfl⟩ | hnow
        · exact Or.inr ⟨calls', List.mem_set hj _⟩
        · exact Or.inl (hnow hdone)
      · refine Or.inr ⟨calls, List.mem_of_getElem? (i := k) ?_⟩
        rw [Tasks.setReceiver, List.getElem?_set_ne hjk]
        exact hk

theorem sendWent (h : t.Watched total wasDone isStopped) (there : t.sends[i]? = some (some call))
    (call' : κ) : (t.sendWent i call').Watched total wasDone isStopped := by
  refine { h with sends := ?_ }
  have hcount : (t.sends.set i (some call')).countP Option.isSome
      = t.sends.countP Option.isSome := by
    rw [countP_set_of_getElem? _ there, countP_of_getElem? _ there]
    rfl
  rw [Tasks.sendWent, hcount]
  exact h.sends

/-- A send that fails looks at the counters in the same step. -/
theorem sendEnded {result : Except Failure Unit} (h : t.Watched total wasDone isStopped)
    (ended : t.sendEnded i result = some t') : t'.Watched total wasDone isStopped := by
  unfold Tasks.sendEnded at ended
  split at ended
  case h_2 => cases ended
  rename_i call there
  have hcount : (t.sends.set i none).countP Option.isSome + 1
      = t.sends.countP Option.isSome := by
    rw [countP_set_of_getElem? _ there, countP_of_getElem? _ there]
    rfl
  have hsends := h.sends
  have hleft := h.left
  cases result with
  | ok =>
    cases ended
    refine { h with sends := ?_ }
    show (t.sends.set i none).countP Option.isSome + t.counters.failedSending ≤ total
    omega
  | error f =>
    simp only [List.isEmpty_eq_false_iff.mpr h.some_receiver, Bool.false_eq_true, if_false] at ended
    cases ended
    -- This send was not over, so its message at least was still to be received.
    have hleft' : t.counters.toReceive - 1 + (t.counters.failedSending + 1) = total := by
      omega
    have hsends' : (t.sends.set i none).countP Option.isSome + (t.counters.failedSending + 1)
        ≤ total := by
      omega
    have hdone : t.isDone = true → t.counters.toReceive - 1 ≤ t.counters.received :=
      fun hdone => Nat.le_trans (Nat.sub_le _ _) (h.done hdone)
    unfold Tasks.look
    split
    · rename_i hnow
      exact
        { left := hleft'
          sends := hsends'
          kept := fun _ => rfl
          done := fun _ => of_decide_eq_true hnow
          some_receiver := h.some_receiver
          ended := fun _ => rfl
          look := fun _ => Or.inl rfl }
    · rename_i hnot
      exact
        { left := hleft'
          sends := hsends'
          kept := h.kept
          done := hdone
          some_receiver := h.some_receiver
          ended := h.ended
          look := fun hnow => absurd (decide_eq_true hnow) hnot }

theorem batchEnded {result : Except Failure (List κ)} (h : t.Watched total wasDone isStopped)
    (asked : result = .error .canceled → (t.isDone || isStopped) = true)
    (ended : t.batchEnded j now result = some t') : t'.Watched total wasDone isStopped := by
  unfold Tasks.batchEnded at ended
  split at ended
  case h_2 => cases ended
  rename_i call there
  split at ended <;> cases ended
  · exact h.setReceiver there nofun nofun
  · exact h.setReceiver there (fun _ => asked rfl) nofun
  · exact h.setReceiver there nofun nofun

theorem deletionWent (h : t.Watched total wasDone isStopped) {calls : List (Option κ)}
    (there : t.receivers[j]? = some (.deleting calls)) (call' : κ) :
    (t.deletionWent j k call').Watched total wasDone isStopped := by
  simp only [Tasks.deletionWent, there]
  exact h.setReceiver there (by simp) fun _ => Or.inl ⟨_, rfl⟩

/-- A message is received while its receiver is still to look. -/
theorem deletionEnded (h : t.Watched total wasDone isStopped)
    (ended : t.deletionEnded j k = some t') : t'.Watched total wasDone isStopped := by
  unfold Tasks.deletionEnded at ended
  split at ended
  case h_2 => cases ended
  rename_i calls there
  split at ended <;> cases ended
  have hset : (t.setReceiver j (.deleting (calls.set k none))).Watched total wasDone isStopped :=
    h.setReceiver there nofun fun _ => Or.inl ⟨_, rfl⟩
  have hj : j < t.receivers.length := (List.getElem?_eq_some_iff.mp there).1
  exact
    { hset with
      done := fun hdone => Nat.le_succ_of_le (h.done hdone)
      look := fun _ => Or.inr ⟨calls.set k none, List.mem_set hj _⟩ }

/-- After a look the counters and the run agree. -/
theorem looked (h : t.Watched total wasDone isStopped) :
    t.look.Watched total wasDone isStopped ∧ (t.look.counters.toReceive ≤ t.look.counters.received →
      t.look.isDone = true) := by
  unfold Tasks.look
  split
  · rename_i hnow
    exact
      ⟨{ h with
          kept := fun _ => rfl
          done := fun _ => of_decide_eq_true hnow
          ended := fun _ => rfl
          look := fun _ => Or.inl rfl }, fun _ => rfl⟩
  · rename_i hnot
    exact ⟨h, fun hnow => absurd (decide_eq_true hnow) hnot⟩

theorem nextBatch (h : t.Watched total wasDone isStopped) {receiver : Receiver κ}
    (there : t.receivers[j]? = some receiver) (again : κ)
    (hlook : (∃ calls, receiver = .deleting calls) →
      t.counters.toReceive ≤ t.counters.received → t.isDone = true) :
    (t.nextBatch j isStopped again).Watched total wasDone isStopped := by
  unfold Tasks.nextBatch
  split
  · rename_i hdone
    exact h.setReceiver there (fun _ => hdone) fun hdeleting => Or.inr (hlook hdeleting)
  · exact h.setReceiver there nofun fun hdeleting => Or.inr (hlook hdeleting)

theorem batchCleared (h : t.Watched total wasDone isStopped)
    (cleared : t.batchCleared j isStopped call = some t') : t'.Watched total wasDone isStopped := by
  unfold Tasks.batchCleared at cleared
  split at cleared
  case h_2 => cases cleared
  rename_i calls there
  split at cleared <;> cases cleared
  obtain ⟨hlooked, hnow⟩ := h.looked
  have hthere : t.look.receivers[j]? = some (.deleting calls) := by
    unfold Tasks.look
    split <;> exact there
  exact hlooked.nextBatch hthere call fun _ => hnow

theorem rested (h : t.Watched total wasDone isStopped)
    (ended : t.rested j now isStopped call = some t') : t'.Watched total wasDone isStopped := by
  unfold Tasks.rested at ended
  split at ended
  case h_2 => cases ended
  rename_i till there
  split at ended <;> cases ended
  exact h.nextBatch there call nofun

theorem restCanceled (h : t.Watched total wasDone isStopped)
    (ended : t.restCanceled j isStopped = some t') : t'.Watched total wasDone isStopped := by
  unfold Tasks.restCanceled at ended
  split at ended
  case h_2 => cases ended
  rename_i till there
  split at ended <;> cases ended
  rename_i hdone
  exact h.setReceiver there (fun _ => hdone) nofun

end Tasks.Watched

/-! ### A run from its first step to its end -/

section
variable {total now : Nat} {b b₀ wasDone isStopped : Bool} {r r₀ : Run} {tasks : Tasks Call}

theorem Run.Turn.watched (turn : r.Turn isStopped now tasks)
    (h : r.tasks.Watched total wasDone isStopped) : tasks.Watched total wasDone isStopped := by
  cases turn with
  | sendWent there => exact h.sendWent there _
  | sendEnded _ ended => exact h.sendEnded ended
  | waited there => exact h.setReceiver there nofun nofun
  | batchEnded asked ended => exact h.batchEnded asked ended
  | deletionWent there => exact h.deletionWent there _
  | deletionEnded ended => exact h.deletionEnded ended
  | batchCleared _ cleared => exact h.batchCleared cleared
  | rested _ ended => exact h.rested ended
  | restCanceled ended => exact h.restCanceled ended

theorem Run.Leads.watched (leads : r₀.Leads b₀ b r) (h : r₀.tasks.Watched total wasDone b₀) :
    r.tasks.Watched total wasDone b := by
  induction leads with
  | here => exact h
  | stopped _ ih => exact ih.stopped
  | turned _ turn ih => exact turn.watched ih

/-- Nothing takes it back that a run is done. -/
theorem Run.Leads.kept (leads : r₀.Leads b₀ b r) (h : r₀.tasks.Watched total wasDone b₀)
    (done : r₀.tasks.isDone = true) :
    r.tasks.isDone = true ∧ r.tasks.counters.toReceive ≤ r.tasks.counters.received := by
  have hwatched := leads.watched { h with kept := fun _ : true = true => done }
  have hdone := hwatched.kept rfl
  exact ⟨hdone, hwatched.done hdone⟩

/-- A run begins with nothing received, and with something to receive if its plan is sound. -/
theorem Run.watched_create {p : Plant} {plan : Plan} {sending receiving : List Queue.Handle}
    (sound : plan.fault? = none) (senders : sending.length = plan.senders)
    (some_receiver : receiving ≠ []) :
    (Run.create p plan sending receiving).tasks.Watched plan.messagesToSend false isStopped := by
  have hpos : 0 < plan.messagesToSend := by
    unfold Plan.fault? at sound
    unfold Plan.messagesToSend rounded
    split at sound
    case isTrue => cases sound
    split at sound
    case isTrue => cases sound
    rename_i hcount hsenders
    split
    · omega
    · have hdiv : 0 < plan.count / plan.senders := Nat.div_pos (by omega) (by omega)
      exact Nat.mul_pos hdiv (by omega)
  have hreceivers : (Run.create p plan sending receiving).tasks.receivers
      = receiving.map fun handle => .waiting (takeCall plan.batch handle) := by
    simp only [Run.create, Tasks.create, List.map_map]
    rfl
  refine
    { left := ?_
      sends := ?_
      kept := fun hdone => absurd hdone Bool.false_ne_true
      done := fun hdone => absurd hdone Bool.false_ne_true
      some_receiver := ?_
      ended := ?_
      look := fun hnone => ?_ }
  · simp only [Run.create, Tasks.create, List.length_map, senders, Nat.add_zero]
    rfl
  · -- Every sender sends its share, and the shares make up no more than the rounded count.
    simp only [Run.create, Tasks.create, Ledger.countP_shares, List.length_map, senders,
      Nat.add_zero]
    refine Nat.le_trans (Nat.mul_div_le _ _) ?_
    split
    · exact Nat.zero_le _
    · exact Nat.le_refl _
  · rw [hreceivers]
    exact mt List.map_eq_nil_iff.mp some_receiver
  · intro hover
    rw [hreceivers] at hover
    obtain ⟨handle, -, heq⟩ := List.mem_map.mp hover
    cases heq
  · simp only [Run.create, Tasks.create, List.length_map, senders] at hnone
    unfold Plan.messagesToSend at hpos
    omega

end

/-- When a throughput run is done, as told by one of its states:

- `fires`: the run comes to be done in a state in which as many messages have been received as
  are to be received;
- `stays`: from then on it is done, and as many have been received;
- `reported`: a run that was never stopped, and is over, has received what it expected;
- `met`: no completion is missed: whether all sends have ended or not, if no receiver is between
  getting a batch and its look, the run is done if as many messages have been received. -/
structure Completion (isStopped : Bool) (r : Run) : Prop where
  fires : ∀ now tasks, r.Turn isStopped now tasks → r.tasks.isDone = false →
    tasks.isDone = true → tasks.counters.toReceive ≤ tasks.counters.received
  stays : r.tasks.isDone = true → ∀ b r', r.Leads isStopped b r' →
    r'.tasks.isDone = true ∧ r'.tasks.counters.toReceive ≤ r'.tasks.counters.received
  reported : isStopped = false → ∀ p report, r.report? p = some report →
    report.expected ≤ report.received
  met : (∀ calls, .deleting calls ∉ r.tasks.receivers) →
    r.tasks.counters.toReceive ≤ r.tasks.counters.received → r.tasks.isDone = true

/-- A run with a sound plan, a sender for each queue that it sends to, and some receiver is done
exactly when it should be, whatever its queues answer and in whatever order. It may have been
stopped before it began. -/
theorem Run.completion {p : Plant} {plan : Plan} {sending receiving : List Queue.Handle}
    {b₀ isStopped : Bool} {r : Run} (sound : plan.fault? = none)
    (senders : sending.length = plan.senders) (some_receiver : receiving ≠ [])
    (leads : (Run.create p plan sending receiving).Leads b₀ isStopped r) :
    Completion isStopped r := by
  have hwatched := leads.watched (Run.watched_create sound senders some_receiver)
  refine
    { fires := fun now tasks turn _ hdone => (turn.watched hwatched).done hdone
      stays := fun hdone b r' later => later.kept hwatched hdone
      reported := ?_
      met := ?_ }
  · intro hstopped p' report hreport
    subst hstopped
    unfold Run.report? at hreport
    split at hreport
    case isFalse => cases hreport
    rename_i hover
    cases hreport
    -- Some receiver has ended, and nobody stopped it.
    obtain ⟨receiver, hmem⟩ := List.exists_mem_of_ne_nil _ hwatched.some_receiver
    have hreceiver := List.all_eq_true.mp (Bool.and_eq_true_iff.mp hover).2 receiver hmem
    obtain rfl : receiver = .over := by
      cases receiver <;> first | rfl | cases hreceiver
    have hdone := hwatched.ended hmem
    rw [Bool.or_false] at hdone
    exact hwatched.done hdone
  · intro hnone hreceived
    rcases hwatched.look hreceived with hdone | ⟨calls, hmem⟩
    · exact hdone
    · exact absurd hmem (hnone calls)

/-! ### A run on a plant -/

/-- The event with which a throughput run joins at a place, or any event with which nobody joins
there. -/
def Joins (i : Nat) (plan : Plan) (sending receiving : List Queue.Handle) (w : World) :
    Event → Prop
  | .join party =>
    w.parties.length = i → party.task.bench? = some (.create w.plant plan sending receiving)
  | .assign .. => w.parties.length ≠ i
  | _ => True

instance (i : Nat) (plan : Plan) (sending receiving : List Queue.Handle) (w : World)
    (event : Event) : Decidable (Joins i plan sending receiving w event) :=
  match event with
  | .join party =>
    inferInstanceAs (Decidable (w.parties.length = i →
      party.task.bench? = some (.create w.plant plan sending receiving)))
  | .assign .. => inferInstanceAs (Decidable (w.parties.length ≠ i))
  | .advance _ | .cancel _ | .inject .. | .observe _ | .keeper _ | .keep .. | .stop _ | .leave _
  | .board | .move .. | .drop _ => isTrue trivial

/-- What there is at the place of a throughput run: nothing yet, the run, led there by turns, its
report, or nothing any more. -/
inductive Led (plan : Plan) (sending receiving : List Queue.Handle) : Option Party → Prop
  | absent : Led plan sending receiving none
  | running {p : Plant} {b₀ isCanceled : Bool} {r : Run}
      (leads : (Run.create p plan sending receiving).Leads b₀ isCanceled r) :
      Led plan sending receiving (some ⟨isCanceled, .bench r⟩)
  | measured {isCanceled : Bool} {report : Report} :
      Led plan sending receiving (some ⟨isCanceled, .measured report⟩)
  | dropped {isCanceled : Bool} : Led plan sending receiving (some ⟨isCanceled, .gone⟩)

end Bench

section
variable {w w' : World} {event : Event} {i : Nat} {plan : Bench.Plan}
  {sending receiving : List Queue.Handle}

theorem Bench.Led.step (h : Led plan sending receiving w.parties[i]?)
    (joins : Joins i plan sending receiving w event) (happens : w.step event = some w') :
    Led plan sending receiving w'.parties[i]? := by
  have hstep := World.step_party happens i
  generalize w.parties[i]? = before at h hstep
  generalize w'.parties[i]? = after at hstep
  cases hstep with
  | absent => exact .absent
  | @joined party last =>
    obtain ⟨isCanceled, task⟩ := party
    obtain rfl := Task.bench?_eq_some (joins last)
    exact .running .here
  | assigned last => exact absurd last joins
  | stayed => exact h
  | canceled =>
    cases h with
    | running leads => exact .running leads.stopped
    | measured => exact .measured
    | dropped => exact .dropped
  | @moved _ _ move made =>
    cases h with
    | running leads =>
      rcases Party.step_bench made with ⟨_, tasks, -, st, rfl⟩ | ⟨_, -, -, -, rfl⟩
      · obtain ⟨_, turn⟩ := st.turn
        exact .running (leads.turned turn)
      · exact .measured
    | measured => cases move <;> cases made
    | dropped => cases move <;> cases made
  | dropped => exact .dropped

/-- A throughput run in a world has been led to where it is by turns. -/
theorem Run.leads {stores : List Queue.Store} {past : List Occurrence} {isCanceled : Bool}
    {r : Bench.Run} (run : Run stores (Bench.Joins i plan sending receiving) past w)
    (there : w.parties[i]? = some ⟨isCanceled, .bench r⟩) :
    ∃ p b₀, (Bench.Run.create p plan sending receiving).Leads b₀ isCanceled r := by
  have hled : Bench.Led plan sending receiving w.parties[i]? := by
    clear there
    induction run with
    | start => exact .absent
    | @step past w w' event before joins happens ih => exact ih.step joins happens
  rw [there] at hled
  cases hled with
  | running leads => exact ⟨_, _, leads⟩

end

/-- The run with the lossy loop, before it is measured: one send has failed, one message has been
received, and the run is done. -/
theorem Bench.completion_lossyLoop :
    ∃ past w r, (past, w) ∈ World.play [.empty "q" 5000000000] lossyLoop.tail ∧
      w.parties[0]? = some ⟨false, .bench r⟩ ∧ r.tasks.areOver = true ∧ r.tasks.isDone = true ∧
      r.tasks.counters = ⟨1, 1, 1⟩ ∧ Completion false r := by
  have hplayed : ∃ run ∈ World.play [.empty "q" 5000000000] lossyLoop.tail,
      (∃ party ∈ run.2.parties[0]?, party.isCanceled = false ∧
        ∃ r ∈ party.task.bench?, r.tasks.areOver = true ∧ r.tasks.isDone = true ∧
          r.tasks.counters = ⟨1, 1, 1⟩) ∧
      ∀ occ ∈ run.1, Joins 0 ⟨2, 1, 1, 10, "m"⟩ [⟨0, .none⟩] [⟨0, .none⟩] occ.before
        occ.event := by
    decide
  obtain ⟨⟨past, w⟩, hplay, ⟨⟨isCanceled, task⟩, hparty, rfl, r, hr, hover, hdone, hcounters⟩,
    hallowed⟩ := hplayed
  obtain rfl := Task.bench?_eq_some hr
  obtain ⟨p, b₀, leads⟩ := (Run.play hplay hallowed).leads hparty
  exact ⟨past, w, r, hplay, hparty, hover, hdone, hcounters,
    Run.completion (by decide) rfl (by decide) leads⟩

end Leasework
