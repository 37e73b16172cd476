import Leasework.Bench.Run
import Leasework.Proofs.Queue.Counts

/-!
# `Leasework.Proofs.Bench.Steps`: the steps of a throughput run

`Bench.Run.Step` names everything that a throughput run can do: sends go on and end, receivers
wait, get a batch, delete its messages one by one, rest after a failure, and are over.
`Bench.Run.step_cases` shows that there is nothing else, and is the only place where the body of
`Bench.Run.step` is looked at.

`sendResult?` and `deleteResult?` say what a send or a deletion came to that ends with a move.
-/

set_option autoImplicit false

namespace Leasework.Bench

open Queue (Call CallMove Failure Reply)

/-- A send has failed. -/
def Tasks.sendFailed {κ : Type} (i : Nat) (t : Tasks κ) : Tasks κ :=
  { t with sends := t.sends.set i none, counters := t.counters.sendFailed }

/-- The message of a deletion has been received. -/
def Tasks.messageReceived {κ : Type} (j k : Nat) (calls : List (Option κ)) (t : Tasks κ) :
    Tasks κ :=
  { t with
    counters := t.counters.messageReceived
    receivers := t.receivers.set j (.deleting (calls.set k none)) }

namespace Run

/-- What a step of a throughput run may come to. -/
inductive Step (isStopped : Bool) (p : Plant) (r : Run) : Move → Plant → Tasks Call → Prop
  /-- A send goes on. -/
  | sending {i : Nat} {move : CallMove} {call call' : Call} {p' : Plant}
      (there : r.tasks.sends[i]? = some (some call))
      (made : p.stepCall (r.isCanceled isStopped) call move = some (p', .going call')) :
      Step isStopped p r (.send i move) p'
        { r.tasks with sends := r.tasks.sends.set i (some call') }
  /-- A message is sent. -/
  | sent {i : Nat} {move : CallMove} {call : Call} {p' : Plant} {reply : Reply}
      (there : r.tasks.sends[i]? = some (some call))
      (made : p.stepCall (r.isCanceled isStopped) call move = some (p', .ended (.ok reply))) :
      Step isStopped p r (.send i move) p' { r.tasks with sends := r.tasks.sends.set i none }
  /-- A send fails, and the run looks whether it is done if anybody receives. -/
  | unsent {i : Nat} {move : CallMove} {call : Call} {p' : Plant} {f : Failure}
      (there : r.tasks.sends[i]? = some (some call))
      (made : p.stepCall (r.isCanceled isStopped) call move = some (p', .ended (.error f))) :
      Step isStopped p r (.send i move) p'
        (if r.tasks.receivers.isEmpty then r.tasks.sendFailed i
          else (r.tasks.sendFailed i).look)
  /-- A receiver goes on to wait. -/
  | awaiting {j : Nat} {move : CallMove} {call call' : Call} {p' : Plant}
      (there : r.tasks.receivers[j]? = some (.waiting call))
      (made : p.stepCall (r.isCanceled isStopped) call move = some (p', .going call')) :
      Step isStopped p r (.receive j move) p' (r.tasks.setReceiver j (.waiting call'))
  /-- A receiver gets a batch, whose deletions begin. -/
  | received {j : Nat} {move : CallMove} {call : Call} {p' : Plant} {reply : Reply}
      (there : r.tasks.receivers[j]? = some (.waiting call))
      (made : p.stepCall (r.isCanceled isStopped) call move = some (p', .ended (.ok reply))) :
      Step isStopped p r (.receive j move) p'
        (r.tasks.setReceiver j (.deleting ((deletions call.handle reply).map some)))
  /-- A receiver that waits is canceled. -/
  | quit {j : Nat} {move : CallMove} {call : Call} {p' : Plant}
      (there : r.tasks.receivers[j]? = some (.waiting call))
      (made : p.stepCall (r.isCanceled isStopped) call move
        = some (p', .ended (.error .canceled))) :
      Step isStopped p r (.receive j move) p' (r.tasks.setReceiver j .over)
  /-- A receiver gets no batch, and rests. -/
  | missed {j : Nat} {move : CallMove} {call : Call} {p' : Plant} {f : Failure}
      (there : r.tasks.receivers[j]? = some (.waiting call))
      (made : p.stepCall (r.isCanceled isStopped) call move = some (p', .ended (.error f)))
      (uncanceled : f ≠ .canceled) :
      Step isStopped p r (.receive j move) p'
        (r.tasks.setReceiver j (.resting (p'.now + restTime)))
  /-- A deletion goes on. -/
  | deleting {j k : Nat} {move : CallMove} {calls : List (Option Call)} {call call' : Call}
      {p' : Plant} (there : r.tasks.receivers[j]? = some (.deleting calls))
      (begun : calls[k]? = some (some call))
      (made : p.stepCall false call move = some (p', .going call')) :
      Step isStopped p r (.delete j k move) p'
        (r.tasks.setReceiver j (.deleting (calls.set k (some call'))))
  /-- A deletion ends, in whatever way. -/
  | deleted {j k : Nat} {move : CallMove} {calls : List (Option Call)} {call : Call}
      {p' : Plant} {result : Except Failure Reply}
      (there : r.tasks.receivers[j]? = some (.deleting calls))
      (begun : calls[k]? = some (some call))
      (made : p.stepCall false call move = some (p', .ended result)) :
      Step isStopped p r (.delete j k move) p' (r.tasks.messageReceived j k calls)
  /-- A batch is deleted. The run looks whether it is done, and the receiver goes on. -/
  | cleared {j : Nat} {calls : List (Option Call)} {call : Call}
      (there : r.tasks.receivers[j]? = some (.deleting calls))
      (all : calls.all Option.isNone = true) (next : r.again j = some call) :
      Step isStopped p r (.clear j) p (r.tasks.look.nextBatch j isStopped call)
  /-- A receiver has rested, and goes on. -/
  | rested {j till : Nat} {call : Call}
      (there : r.tasks.receivers[j]? = some (.resting till)) (late : till ≤ p.now)
      (next : r.again j = some call) :
      Step isStopped p r (.rested j) p (r.tasks.nextBatch j isStopped call)
  /-- A receiver that rests is canceled. -/
  | quitRest {j till : Nat} (there : r.tasks.receivers[j]? = some (.resting till))
      (asked : r.isCanceled isStopped = true) :
      Step isStopped p r (.quitRest j) p (r.tasks.setReceiver j .over)

/-- Whatever step a throughput run makes, it is one of these. -/
theorem step_cases {isStopped : Bool} {p p' : Plant} {r r' : Run} {move : Move}
    (h : r.step isStopped p move = some (p', r')) :
    ∃ tasks, Step isStopped p r move p' tasks ∧ r' = { r with tasks := tasks } := by
  cases move with
  | send i move =>
    simp only [step] at h
    split at h
    · rename_i call there
      simp only [bind, Option.bind_eq_some_iff] at h
      obtain ⟨⟨p₁, progress⟩, made, heq⟩ := h
      cases progress with
      | going call' =>
        cases heq
        exact ⟨_, .sending there made, rfl⟩
      | ended result =>
        simp only [Tasks.sendEnded, there, Option.bind_eq_some_iff] at heq
        obtain ⟨tasks, htasks, heq⟩ := heq
        cases heq
        cases result with
        | ok reply =>
          cases htasks
          exact ⟨_, .sent there made, rfl⟩
        | error f =>
          cases htasks
          exact ⟨_, .unsent there made, rfl⟩
    · cases h
  | receive j move =>
    simp only [step] at h
    split at h
    · rename_i call there
      simp only [bind, Option.bind_eq_some_iff] at h
      obtain ⟨⟨p₁, progress⟩, made, heq⟩ := h
      cases progress with
      | going call' =>
        cases heq
        exact ⟨_, .awaiting there made, rfl⟩
      | ended result =>
        simp only [Tasks.batchEnded, there, Option.bind_eq_some_iff] at heq
        obtain ⟨tasks, htasks, heq⟩ := heq
        cases heq
        cases result with
        | ok reply =>
          cases htasks
          exact ⟨_, .received there made, rfl⟩
        | error f =>
          -- Only the failure of a call that was canceled ends a receiver.
          cases f with
          | canceled =>
            cases htasks
            exact ⟨_, .quit there made, rfl⟩
          | _ =>
            cases htasks
            exact ⟨_, .missed there made nofun, rfl⟩
    · cases h
  | delete j k move =>
    simp only [step] at h
    split at h
    · rename_i calls there
      split at h
      · rename_i call begun
        simp only [bind, Option.bind_eq_some_iff] at h
        obtain ⟨⟨p₁, progress⟩, made, heq⟩ := h
        cases progress with
        | going call' =>
          simp only [Tasks.deletionWent, there] at heq
          cases heq
          exact ⟨_, .deleting there begun made, rfl⟩
        | ended result =>
          simp only [Tasks.deletionEnded, there, begun, Option.bind_some] at heq
          cases heq
          exact ⟨_, .deleted there begun made, rfl⟩
      · cases h
    · cases h
  | clear j =>
    simp only [step, bind, Option.bind_eq_some_iff] at h
    obtain ⟨call, next, tasks, htasks, heq⟩ := h
    cases heq
    unfold Tasks.batchCleared at htasks
    split at htasks
    · rename_i calls there
      split at htasks
      · rename_i all
        cases htasks
        exact ⟨_, .cleared there all next, rfl⟩
      · cases htasks
    · cases htasks
  | rested j =>
    simp only [step, bind, Option.bind_eq_some_iff] at h
    obtain ⟨call, next, tasks, htasks, heq⟩ := h
    cases heq
    unfold Tasks.rested at htasks
    split at htasks
    · rename_i till there
      split at htasks
      · rename_i late
        cases htasks
        exact ⟨_, .rested there late next, rfl⟩
      · cases htasks
    · cases htasks
  | quitRest j =>
    simp only [step, bind, Option.bind_eq_some_iff] at h
    obtain ⟨tasks, htasks, heq⟩ := h
    cases heq
    unfold Tasks.restCanceled at htasks
    split at htasks
    · rename_i till there
      split at htasks
      · rename_i asked
        cases htasks
        exact ⟨_, .quitRest there asked, rfl⟩
      · cases htasks
    · cases htasks

/-! ### Results -/

/-- What a send came to that ends with a move. -/
def sendResult? (isStopped : Bool) (p : Plant) (r : Run) : Move → Option (Except Failure Reply)
  | .send i move =>
    match r.tasks.sends[i]? with
    | some (some call) =>
      (p.stepCall (r.isCanceled isStopped) call move).bind fun (_, progress) => progress.result?
    | _ => none
  | _ => none

/-- What a deletion came to that ends with a move. Deletions are never canceled. -/
def deleteResult? (p : Plant) (r : Run) : Move → Option (Except Failure Reply)
  | .delete j k move =>
    match r.tasks.receivers[j]? with
    | some (.deleting calls) =>
      match calls[k]? with
      | some (some call) => (p.stepCall false call move).bind fun (_, progress) => progress.result?
      | _ => none
    | _ => none
  | _ => none

section
variable {isStopped : Bool} {p p' : Plant} {r : Run} {move : CallMove} {call : Call}
  {result : Except Failure Reply}

/-- A send with a result has ended with a step of its call. -/
theorem sendResult?_eq_some {made : Move} (h : r.sendResult? isStopped p made = some result) :
    ∃ (i : Nat) (move : CallMove) (call : Call) (p' : Plant),
      r.tasks.sends[i]? = some (some call) ∧
        p.stepCall (r.isCanceled isStopped) call move = some (p', .ended result) := by
  unfold sendResult? at h
  split at h
  · split at h
    · rename_i call there
      obtain ⟨⟨p', progress⟩, hmade, hresult⟩ := Option.bind_eq_some_iff.mp h
      cases progress with
      | going => cases hresult
      | ended =>
        cases hresult
        exact ⟨_, _, call, p', there, hmade⟩
    · cases h
  · cases h

/-- The end of a deletion is its result. -/
theorem deleteResult?_of_ended {j k : Nat} {calls : List (Option Call)}
    (there : r.tasks.receivers[j]? = some (.deleting calls))
    (begun : calls[k]? = some (some call))
    (made : p.stepCall false call move = some (p', .ended result)) :
    r.deleteResult? p (.delete j k move) = some result := by
  simp only [deleteResult?, there, begun, made, Option.bind_some, Queue.Progress.result?]

end

end Run

end Leasework.Bench
