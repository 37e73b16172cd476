import Leasework.Proofs.Bench.Steps
import Leasework.Proofs.World.Agents

/-!
# `Leasework.Proofs.Bench.Ledger`: sends, deletions and the counters of a throughput run

A throughput run whose senders and receivers all use one store, which nobody else uses, keeps a
`Ledger`. Every message that is to be sent has been sent, has failed, or is still being sent; as
many have been received as have been deleted. The store cannot have deleted more than it was
sent, so the run is done only when no send is left (`Ledger.settled`). Hence no send is ever
canceled (`Ledger.not_isCanceled`), and a run that is over has received exactly what it has sent
(`Ledger.balanced`).

Each of the lemmas before `Ledger.step` is about one change of the tasks, and about the counts of
the store that go with it.
-/

set_option autoImplicit false

namespace Leasework

open Queue (Call Orderly Store)

/-- A call on a store that sends so many messages, and deletes so many, when it succeeds. -/
structure Queue.Call.Counts (q sends deletes : Nat) (c : Call) : Prop where
  store : c.handle.store = q
  sends : c.request.sends = sends
  deletes : c.request.deletes = deletes

theorem Queue.Call.Counts.going {q sends deletes : Nat} {canceled : Bool} {p p' : Plant}
    {c c' : Call} {move : Queue.CallMove} (hc : c.Counts q sends deletes)
    (made : p.stepCall canceled c move = some (p', .going c')) : c'.Counts q sends deletes := by
  obtain ⟨hhandle, hrequest⟩ := Plant.stepCall_same made
  refine ⟨?_, ?_, ?_⟩
  · rw [hhandle, hc.store]
  · rw [hrequest, hc.sends]
  · rw [hrequest, hc.deletes]

/-- A step of a call on a store is a step there, and keeps its books in order. -/
theorem Plant.stepCall_onStore {q : Nat} {canceled : Bool} {p p' : Plant} {c : Call}
    {move : Queue.CallMove} {progress : Queue.Progress} {s : Store}
    (made : p.stepCall canceled c move = some (p', progress)) (hc : c.handle.store = q)
    (hs : p.stores[q]? = some s) (o : Orderly s) :
    ∃ s', p'.stores[q]? = some s' ∧ Orderly s' ∧ c.Step canceled p.now s s' progress := by
  subst hc
  obtain ⟨s₀, s', hs₀, st, rfl⟩ := stepCall_cases made
  obtain rfl : s₀ = s := Option.some.inj (hs₀.symm.trans hs)
  exact ⟨s', stores_withStore hs s', st.orderly o, st⟩

namespace Bench

/-- A receiver that makes its calls on a store. -/
def Receiver.IsOn (q : Nat) : Receiver Call → Prop
  | .waiting call => call.Counts q 0 0
  | .deleting calls => ∀ call, some call ∈ calls → call.Counts q 0 1
  | _ => True

/-- The books of a run that is to send so many messages, on the only store that it uses. -/
structure Ledger (q total : Nat) (s : Store) (r : Run) : Prop where
  orderly : Orderly s
  toSend : r.tasks.toSend = total
  /-- A message that was not sent is not to be received either. -/
  expected : r.tasks.counters.toReceive + r.tasks.counters.failedSending = total
  /-- A message has been sent, is still being sent, or could not be sent. -/
  sent : s.tally.sent + r.tasks.sends.countP Option.isSome + r.tasks.counters.failedSending
    = total
  received : r.tasks.counters.received = s.tally.deleted
  done : r.tasks.isDone = true → r.tasks.counters.toReceive ≤ r.tasks.counters.received
  /-- Nobody stops receiving before the run is done. -/
  ended : .over ∈ r.tasks.receivers → r.tasks.isDone = true
  some_receiver : r.tasks.receivers ≠ []
  sends : ∀ call, some call ∈ r.tasks.sends → call.Counts q 1 0
  receivers : ∀ receiver ∈ r.tasks.receivers, receiver.IsOn q
  receiving : ∀ handle ∈ r.receiving, handle.store = q

namespace Ledger
variable {q total : Nat} {s s' : Store} {r : Run}

/-! ### What the books say -/

/-- When the run is done, no send is left, and everything sent has been received. -/
theorem settled (l : Ledger q total s r) (done : r.tasks.isDone = true) :
    r.tasks.sends.countP Option.isSome = 0 ∧ s.tally.sent ≤ s.tally.deleted := by
  have hexpected := l.expected
  have hsent := l.sent
  have hreceived := l.received
  have hdone := l.done done
  -- What the store has deleted it was sent before, so the run cannot be done any earlier.
  have hdeleted := l.orderly.deleted_le_sent
  omega

/-- As long as a send is left, its run is not canceled. -/
theorem not_isCanceled (l : Ledger q total s r) {i : Nat} {call : Call}
    (there : r.tasks.sends[i]? = some (some call)) : r.isCanceled false = false := by
  have hleft : 0 < r.tasks.sends.countP Option.isSome :=
    List.countP_pos_iff.mpr ⟨some call, List.mem_of_getElem? there, rfl⟩
  by_cases hdone : r.tasks.isDone = true
  · have hnone := (l.settled hdone).1
    omega
  · unfold Run.isCanceled
    rw [Bool.or_false]
    exact Bool.not_eq_true _ ▸ hdone

/-! ### What keeps the books -/

/-- What happens to the store without the run sends nothing there, and deletes nothing. -/
theorem later (l : Ledger q total s r) (o : Orderly s') (counted : Store.Counted 0 0 s s') :
    Ledger q total s' r :=
  { l with
    orderly := o
    sent := by
      rw [counted.sent]
      exact l.sent
    received := by
      rw [counted.deleted]
      exact l.received }

/-- A receiver comes to do something else. -/
theorem setReceiver (l : Ledger q total s r) {j : Nat} {receiver : Receiver Call}
    (on : receiver.IsOn q) (hover : receiver = .over → r.tasks.isDone = true) :
    Ledger q total s { r with tasks := r.tasks.setReceiver j receiver } := by
  refine { l with ended := ?_, some_receiver := ?_, receivers := ?_ }
  · intro hmem
    rcases List.mem_or_eq_of_mem_set hmem with hmem | heq
    · exact l.ended hmem
    · exact hover heq.symm
  · intro hnil
    have hlength : (r.tasks.receivers.set j receiver).length = 0 := congrArg List.length hnil
    rw [List.length_set] at hlength
    exact l.some_receiver (List.eq_nil_of_length_eq_zero hlength)
  · intro receiver' hmem
    rcases List.mem_or_eq_of_mem_set hmem with hmem | rfl
    · exact l.receivers receiver' hmem
    · exact on

theorem look (l : Ledger q total s r) :
    Ledger q total s { r with tasks := r.tasks.look } := by
  unfold Tasks.look
  split
  · rename_i hdone
    refine { l with done := ?_, ended := ?_ }
    · intro _
      exact of_decide_eq_true hdone
    · intro _
      rfl
  · exact l

/-- A receiver waits for one more batch, or the run is done. -/
theorem nextBatch (l : Ledger q total s r) {j : Nat} {call : Call}
    (next : r.again j = some call) :
    Ledger q total s { r with tasks := r.tasks.nextBatch j false call } := by
  obtain ⟨handle, hhandle, rfl⟩ := Option.map_eq_some_iff.mp next
  unfold Tasks.nextBatch
  rw [Bool.or_false]
  by_cases hdone : r.tasks.isDone = true
  · rw [if_pos hdone]
    exact l.setReceiver trivial fun _ => hdone
  · rw [if_neg hdone]
    have hstore := l.receiving handle (List.mem_of_getElem? hhandle)
    exact l.setReceiver ⟨hstore, rfl, rfl⟩ nofun

/-- What becomes of one send asks for the same thing, or for nothing any more. -/
theorem counts_of_set (l : Ledger q total s r) {i : Nat} {slot : Option Call}
    (hslot : ∀ call, slot = some call → call.Counts q 1 0) :
    ∀ call, some call ∈ r.tasks.sends.set i slot → call.Counts q 1 0 := by
  intro call hmem
  rcases List.mem_or_eq_of_mem_set hmem with hmem | heq
  · exact l.sends call hmem
  · exact hslot call heq.symm

section
variable {i : Nat} {call : Call}

theorem sending (l : Ledger q total s r) (there : r.tasks.sends[i]? = some (some call))
    {call' : Call} (hcall : call'.Counts q 1 0) :
    Ledger q total s
      { r with tasks := { r.tasks with sends := r.tasks.sends.set i (some call') } } := by
  have hcount : (r.tasks.sends.set i (some call')).countP Option.isSome
      = r.tasks.sends.countP Option.isSome := by
    rw [countP_set_of_getElem? _ there, countP_of_getElem? _ there]
    rfl
  refine { l with sent := ?_, sends := l.counts_of_set ?_ }
  · rw [hcount]
    exact l.sent
  · rintro _ ⟨⟩
    exact hcall

theorem countP_sends (there : r.tasks.sends[i]? = some (some call)) :
    (r.tasks.sends.set i none).countP Option.isSome + 1
      = r.tasks.sends.countP Option.isSome := by
  rw [countP_set_of_getElem? _ there, countP_of_getElem? _ there]
  rfl

theorem sentOne (l : Ledger q total s r) (there : r.tasks.sends[i]? = some (some call))
    (o : Orderly s') (counted : Store.Counted 1 0 s s') :
    Ledger q total s' { r with tasks := { r.tasks with sends := r.tasks.sends.set i none } } := by
  refine { l with orderly := o, sent := ?_, received := ?_, sends := l.counts_of_set nofun }
  · have hcount := countP_sends there
    have hcounted := counted.sent
    have hsent := l.sent
    show s'.tally.sent + (r.tasks.sends.set i none).countP Option.isSome
      + r.tasks.counters.failedSending = total
    omega
  · rw [counted.deleted]
    exact l.received

theorem sendFailed (l : Ledger q total s r) (there : r.tasks.sends[i]? = some (some call)) :
    Ledger q total s { r with tasks := r.tasks.sendFailed i } := by
  have hcount := countP_sends there
  have hexpected := l.expected
  have hsent := l.sent
  refine
    { l with expected := ?_, sent := ?_, done := ?_, sends := l.counts_of_set nofun }
  · -- The message was to be received so far, and the subtraction takes it away.
    show r.tasks.counters.toReceive - 1 + (r.tasks.counters.failedSending + 1) = total
    omega
  · show s.tally.sent + (r.tasks.sends.set i none).countP Option.isSome
      + (r.tasks.counters.failedSending + 1) = total
    omega
  · intro hdone
    have hreceived := l.done hdone
    show r.tasks.counters.toReceive - 1 ≤ r.tasks.counters.received
    omega

end

/-- A message is deleted, and counts as received. -/
theorem messageReceived (l : Ledger q total s r) {j k : Nat} {calls : List (Option Call)}
    (there : r.tasks.receivers[j]? = some (.deleting calls)) (o : Orderly s')
    (counted : Store.Counted 0 1 s s') :
    Ledger q total s' { r with tasks := r.tasks.messageReceived j k calls } := by
  have hon := l.receivers _ (List.mem_of_getElem? there)
  have hset : Receiver.IsOn q (.deleting (calls.set k none)) := by
    intro call hmem
    rcases List.mem_or_eq_of_mem_set hmem with hmem | heq
    · exact hon call hmem
    · cases heq
  have hreceiver := l.setReceiver (j := j) hset nofun
  refine { hreceiver with orderly := o, sent := ?_, received := ?_, done := ?_ }
  · rw [counted.sent]
    exact l.sent
  · rw [counted.deleted, ← l.received]
    rfl
  · intro hdone
    exact Nat.le_succ_of_le (l.done hdone)

/-! ### A run from its first step to its end -/

/-- Every step of a run keeps its books, if no deletion fails. -/
theorem step {p p' : Plant} {move : Move} {tasks : Tasks Call} (l : Ledger q total s r)
    (hs : p.stores[q]? = some s) (st : r.Step false p move p' tasks)
    (deleted : ∀ f, r.deleteResult? p move ≠ some (.error f)) :
    ∃ s', p'.stores[q]? = some s' ∧ Ledger q total s' { r with tasks := tasks } := by
  cases st with
  | sending there made =>
    have hcall := l.sends _ (List.mem_of_getElem? there)
    obtain ⟨s', hs', o, st⟩ := Plant.stepCall_onStore made hcall.store hs l.orderly
    exact ⟨s', hs', (l.later o st.counted_going).sending there (hcall.going made)⟩
  | sent there made =>
    have hcall := l.sends _ (List.mem_of_getElem? there)
    obtain ⟨s', hs', o, st⟩ := Plant.stepCall_onStore made hcall.store hs l.orderly
    have counted := st.counted_done
    rw [hcall.sends, hcall.deletes] at counted
    exact ⟨s', hs', l.sentOne there o counted⟩
  | unsent there made =>
    have hcall := l.sends _ (List.mem_of_getElem? there)
    obtain ⟨s', hs', o, st⟩ := Plant.stepCall_onStore made hcall.store hs l.orderly
    have hfailed := (l.later o st.counted_failed).sendFailed there
    refine ⟨s', hs', ?_⟩
    rw [if_neg (mt List.isEmpty_iff.mp l.some_receiver)]
    exact hfailed.look
  | awaiting there made =>
    have hcall : Call.Counts q 0 0 _ := l.receivers _ (List.mem_of_getElem? there)
    obtain ⟨s', hs', o, st⟩ := Plant.stepCall_onStore made hcall.store hs l.orderly
    exact ⟨s', hs', (l.later o st.counted_going).setReceiver (hcall.going made) nofun⟩
  | @received j move call p' reply there made =>
    have hcall : Call.Counts q 0 0 _ := l.receivers _ (List.mem_of_getElem? there)
    obtain ⟨s', hs', o, st⟩ := Plant.stepCall_onStore made hcall.store hs l.orderly
    have counted := st.counted_done
    rw [hcall.sends, hcall.deletes] at counted
    refine ⟨s', hs', (l.later o counted).setReceiver (fun call' hmem => ?_) nofun⟩
    obtain ⟨call'', hmem, heq⟩ := List.mem_map.mp hmem
    cases heq
    cases reply with
    | done => cases hmem
    | batch deliveries =>
      obtain ⟨d, -, rfl⟩ := List.mem_map.mp hmem
      exact ⟨hcall.store, rfl, rfl⟩
  | quit there made =>
    have hcall : Call.Counts q 0 0 _ := l.receivers _ (List.mem_of_getElem? there)
    obtain ⟨s', hs', o, st⟩ := Plant.stepCall_onStore made hcall.store hs l.orderly
    -- Nobody is told to stop, so the call was canceled because the run is done.
    have hdone : r.isCanceled false = true := st.asked rfl
    rw [Run.isCanceled, Bool.or_false] at hdone
    exact ⟨s', hs', (l.later o st.counted_failed).setReceiver trivial fun _ => hdone⟩
  | missed there made =>
    have hcall : Call.Counts q 0 0 _ := l.receivers _ (List.mem_of_getElem? there)
    obtain ⟨s', hs', o, st⟩ := Plant.stepCall_onStore made hcall.store hs l.orderly
    exact ⟨s', hs', (l.later o st.counted_failed).setReceiver trivial nofun⟩
  | @deleting j k move calls call call' p' there begun made =>
    have hcalls : ∀ call, some call ∈ calls → Call.Counts q 0 1 call :=
      l.receivers _ (List.mem_of_getElem? there)
    have hcall := hcalls _ (List.mem_of_getElem? begun)
    obtain ⟨s', hs', o, st⟩ := Plant.stepCall_onStore made hcall.store hs l.orderly
    refine ⟨s', hs', (l.later o st.counted_going).setReceiver (fun call₀ hmem => ?_) nofun⟩
    rcases List.mem_or_eq_of_mem_set hmem with hmem | heq
    · exact hcalls call₀ hmem
    · cases heq
      exact hcall.going made
  | @deleted j k move calls call p' result there begun made =>
    have hcalls : ∀ call, some call ∈ calls → Call.Counts q 0 1 call :=
      l.receivers _ (List.mem_of_getElem? there)
    have hcall := hcalls _ (List.mem_of_getElem? begun)
    obtain ⟨s', hs', o, st⟩ := Plant.stepCall_onStore made hcall.store hs l.orderly
    cases result with
    | error f => exact absurd (Run.deleteResult?_of_ended there begun made) (deleted f)
    | ok reply =>
      have counted := st.counted_done
      rw [hcall.sends, hcall.deletes] at counted
      exact ⟨s', hs', l.messageReceived there o counted⟩
  | cleared there all next => exact ⟨s, hs, l.look.nextBatch next⟩
  | rested there late next => exact ⟨s, hs, l.nextBatch next⟩
  | quitRest there asked =>
    rw [Run.isCanceled, Bool.or_false] at asked
    exact ⟨s, hs, l.setReceiver trivial fun _ => asked⟩

/-- No send ends canceled. -/
theorem uncanceled {p : Plant} {move : Move} (l : Ledger q total s r)
    (hs : p.stores[q]? = some s) {f : Queue.Failure}
    (hf : r.sendResult? false p move = some (.error f)) : f.isCanceled = false := by
  obtain ⟨i, cmove, call, p', there, made⟩ := Run.sendResult?_eq_some hf
  have hstore := (l.sends _ (List.mem_of_getElem? there)).store
  obtain ⟨s', -, -, st⟩ := Plant.stepCall_onStore made hstore hs l.orderly
  by_contra hcanceled
  have hasked := st.asked (Bool.not_eq_false _ ▸ hcanceled)
  rw [l.not_isCanceled there] at hasked
  cases hasked

/-- Every sender begins its share of the sends. -/
theorem countP_shares (share : Nat) (calls : List Call) :
    (calls.flatMap fun call => List.replicate share (some call)).countP Option.isSome
      = calls.length * share := by
  induction calls with
  | nil => rw [List.length_nil, Nat.zero_mul]; rfl
  | cons call calls ih =>
    have hshare : (List.replicate share (some call)).countP Option.isSome = share := by
      rw [List.countP_replicate]
      rfl
    rw [List.flatMap_cons, List.countP_append, hshare, ih, List.length_cons, Nat.succ_mul,
      Nat.add_comm]

/-- The books of a run begin with a store that nothing was ever sent to. -/
theorem create {p : Plant} {plan : Plan} {sending receiving : List Queue.Handle}
    (o : Orderly s) (unsent : s.tally.sent = 0) (some_sender : sending ≠ [])
    (some_receiver : receiving ≠ []) (on : ∀ handle ∈ sending ++ receiving, handle.store = q) :
    Ledger q (rounded plan.count sending.length) s (.create p plan sending receiving) := by
  have hempty : (sending.map fun handle =>
      Call.start handle (.send plan.message)).isEmpty = false := by
    rw [List.isEmpty_map, List.isEmpty_eq_false_iff]
    exact some_sender
  have htoSend : (Run.create p plan sending receiving).tasks.toSend
      = rounded plan.count sending.length := by
    simp only [Run.create, Tasks.create, hempty, List.length_map, Bool.false_eq_true, if_false]
  have hsends : (Run.create p plan sending receiving).tasks.sends
      = (sending.map fun handle => Call.start handle (.send plan.message)).flatMap fun call =>
        List.replicate (rounded plan.count sending.length / sending.length) (some call) := by
    simp only [Run.create, Tasks.create, hempty, List.length_map, Bool.false_eq_true, if_false]
  have hreceivers : (Run.create p plan sending receiving).tasks.receivers
      = receiving.map fun handle => .waiting (Run.takeCall plan.batch handle) := by
    simp only [Run.create, Tasks.create, List.map_map]
    rfl
  refine
    { orderly := o
      toSend := htoSend
      expected := ?_
      sent := ?_
      received := ?_
      done := nofun
      ended := ?_
      some_receiver := ?_
      sends := ?_
      receivers := ?_
      receiving := fun handle hmem => on handle (List.mem_append_right _ hmem) }
  · simp only [Run.create, Tasks.create, List.length_map, Nat.add_zero]
  · -- The count has been rounded, so the shares of the senders make it up.
    have hpos : 0 < sending.length := List.length_pos_iff.mpr some_sender
    have hrounded : sending.length * (rounded plan.count sending.length / sending.length)
        = rounded plan.count sending.length := by
      rw [rounded, if_neg (by omega), Nat.mul_div_cancel _ hpos, Nat.mul_comm]
    show s.tally.sent + (Run.create p plan sending receiving).tasks.sends.countP _ + 0 = _
    rw [hsends, countP_shares, List.length_map, hrounded]
    omega
  · show 0 = s.tally.deleted
    have hdeleted := o.deleted_le_sent
    omega
  · intro hover
    rw [hreceivers] at hover
    obtain ⟨handle, -, heq⟩ := List.mem_map.mp hover
    cases heq
  · rw [hreceivers]
    exact mt List.map_eq_nil_iff.mp some_receiver
  · rw [hsends]
    intro call hmem
    obtain ⟨_, hcall, hmem⟩ := List.mem_flatMap.mp hmem
    obtain ⟨handle, hhandle, rfl⟩ := List.mem_map.mp hcall
    cases (List.mem_replicate.mp hmem).2
    exact ⟨on handle (List.mem_append_left _ hhandle), rfl, rfl⟩
  · rw [hreceivers]
    intro receiver hmem
    obtain ⟨handle, hhandle, rfl⟩ := List.mem_map.mp hmem
    exact ⟨on handle (List.mem_append_right _ hhandle), rfl, rfl⟩

end Ledger

/-! ### What a run comes to -/

/-- A run that is over has received what it has sent, and deleted it. -/
structure Balanced (total : Nat) (s : Store) (report : Report) : Prop where
  orderly : Orderly s
  failed : report.failedSending ≤ total
  sent : report.sent = total - report.failedSending
  expected : report.expected = report.sent
  received : report.received = report.expected
  deleted : s.tally.deleted = report.sent
  cleared : s.tally.sent = s.tally.deleted

theorem Ledger.balanced {q total : Nat} {s : Store} {p : Plant} {r : Run} {report : Report}
    (l : Ledger q total s r) (h : r.report? p = some report) : Balanced total s report := by
  unfold Run.report? at h
  split at h
  · rename_i hover
    cases h
    -- Some receiver is over, and that is why the run is done.
    have hdone : r.tasks.isDone = true := by
      obtain ⟨receiver, hmem⟩ := List.exists_mem_of_ne_nil _ l.some_receiver
      have hreceivers := (Bool.and_eq_true_iff.mp hover).2
      have hreceiver := List.all_eq_true.mp hreceivers receiver hmem
      unfold Tasks.receiverIsOver at hreceiver
      split at hreceiver
      · exact l.ended hmem
      · cases hreceiver
    obtain ⟨hleft, hle⟩ := l.settled hdone
    have hdeleted := l.orderly.deleted_le_sent
    have hexpected := l.expected
    have hsent := l.sent
    have hreceived := l.received
    have htoSend := l.toSend
    refine ⟨l.orderly, ?_, ?_, ?_, ?_, ?_, ?_⟩
    · show r.tasks.counters.failedSending ≤ total
      omega
    · show r.tasks.toSend - r.tasks.counters.failedSending = total - r.tasks.counters.failedSending
      rw [htoSend]
    · show r.tasks.counters.toReceive = r.tasks.toSend - r.tasks.counters.failedSending
      omega
    · show r.tasks.counters.received = r.tasks.counters.toReceive
      omega
    · show s.tally.deleted = r.tasks.toSend - r.tasks.counters.failedSending
      omega
    · omega
  · cases h

end Bench

end Leasework
