import Leasework.Proofs.Queue.Calls

/-!
# `Leasework.Proofs.Queue.Counts`: how many messages were sent and deleted

A store counts the messages that it was sent and those that it was told to delete. It counts a
request that is carried out, once, and nothing else: neither attempts that fail, nor renewals
and looks from outside. So a call is counted with the step in which it succeeds.

A *meter* is one of the numbers of a tally. `Call.Step.read` says for all of them at once how far
a step of a call turns them: by one, if it carries out what the meter counts.

`Call.Step.asked` says why a call that fails may be one that was canceled: the store never
answers so, hence it was told to stop.
-/

set_option autoImplicit false

namespace Leasework.Queue

/-- How many messages are sent when a request is carried out. -/
def Request.sends : Request → Nat
  | .send _ => 1
  | _ => 0

/-- How many messages are deleted when a request is carried out. -/
def Request.deletes : Request → Nat
  | .delete _ => 1
  | _ => 0

/-- A deed that neither sends nor deletes anything, whatever comes of it. -/
def Deed.IsAside : Deed → Prop
  | .attempt request => request.sends = 0 ∧ request.deletes = 0
  | _ => True

/-- What a call came to that is over. -/
def Progress.result? : Progress → Option (Except Failure Reply)
  | .going _ => none
  | .ended result => some result

/-- From one state of a store to another, so many messages were sent and so many deleted. -/
structure Store.Counted (sent deleted : Nat) (s s' : Store) : Prop where
  sent : s'.tally.sent = s.tally.sent + sent
  deleted : s'.tally.deleted = s.tally.deleted + deleted

namespace Store.Step
variable {now : Nat} {s s' : Store} {deed : Deed} {outcome : Option Outcome}

theorem counted_done {request : Request} {reply : Reply}
    (st : Store.Step now s (.attempt request) s' (some (.answered (.ok reply)))) :
    Counted request.sends request.deletes s s' := by
  cases st <;> exact ⟨rfl, rfl⟩

theorem counted_failed {f : Failure}
    (st : Store.Step now s deed s' (some (.answered (.error f)))) : Counted 0 0 s s' := by
  cases st <;> exact ⟨rfl, rfl⟩

theorem counted_nothing {expiry : Option Nat}
    (st : Store.Step now s deed s' (some (.nothing expiry))) : Counted 0 0 s s' := by
  cases st
  exact ⟨rfl, rfl⟩

theorem counted_aside (st : Store.Step now s deed s' outcome) (aside : deed.IsAside) :
    Counted 0 0 s s' := by
  cases st with
  | sent => cases aside.1
  | deleted => cases aside.2
  | _ => exact ⟨rfl, rfl⟩

/-- A store never answers that a call was canceled. -/
theorem not_isCanceled {f : Failure}
    (st : Store.Step now s deed s' (some (.answered (.error f)))) : f.isCanceled = false := by
  cases st with
  | faulted request kind => cases kind <;> rfl
  | lost => rfl

end Store.Step

namespace Call.Step
variable {canceled : Bool} {now : Nat} {s s' : Store} {c : Call} {progress : Progress}

/-- A step of a call keeps the books of its store in order. -/
theorem orderly (st : Step canceled now s c s' progress) (o : Orderly s) : Orderly s' := by
  rcases st.store with rfl | ⟨outcome, st⟩
  · exact o
  · exact o.step st

theorem counted_going {c' : Call} (st : Step canceled now s c s' (.going c')) :
    Store.Counted 0 0 s s' := by
  cases st with
  | blocked st => exact st.counted_nothing
  | throttled st => exact st.counted_failed

theorem counted_done {reply : Reply} (st : Step canceled now s c s' (.ended (.ok reply))) :
    Store.Counted c.request.sends c.request.deletes s s' :=
  st.succeeded.counted_done

theorem counted_failed {f : Failure} (st : Step canceled now s c s' (.ended (.error f))) :
    Store.Counted 0 0 s s' := by
  cases st with
  | quit => exact ⟨rfl, rfl⟩
  | settled st => exact st.counted_failed

/-- A call that ends canceled had been told to. -/
theorem asked {f : Failure} (st : Step canceled now s c s' (.ended (.error f)))
    (hf : f.isCanceled = true) : canceled = true := by
  cases st with
  | quit asked => exact asked
  | settled st =>
    rw [st.not_isCanceled] at hf
    cases hf

end Call.Step

/-! ### Meters -/

/-- What is counted when a request is carried out. -/
inductive Meter where
  /-- Messages sent. -/
  | sent
  /-- Messages given back. -/
  | returned
  /-- Messages deleted. -/
  | deleted
deriving DecidableEq

/-- What a meter shows. -/
def Tally.read (t : Tally) : Meter → Nat
  | .sent => t.sent
  | .returned => t.returned
  | .deleted => t.deleted

/-- The meter that a request turns when it is carried out. -/
def Request.meter? : Request → Option Meter
  | .send _ => some .sent
  | .giveBack _ => some .returned
  | .delete _ => some .deleted
  | _ => none

/-- Whether a call is over and has succeeded. -/
def Progress.isDone : Progress → Bool
  | .ended (.ok _) => true
  | _ => false

section
variable {canceled : Bool} {now : Nat} {s s' : Store} {c : Call} {progress : Progress}
  {deed : Deed} {outcome : Option Outcome} (m : Meter)

theorem Store.Step.read_done {request : Request} {reply : Reply}
    (st : Store.Step now s (.attempt request) s' (some (.answered (.ok reply)))) :
    s'.tally.read m = s.tally.read m + if request.meter? = some m then 1 else 0 := by
  cases st <;> cases m <;> rfl

theorem Store.Step.read_failed {f : Failure}
    (st : Store.Step now s deed s' (some (.answered (.error f)))) :
    s'.tally.read m = s.tally.read m := by
  cases st <;> rfl

theorem Store.Step.read_nothing {expiry : Option Nat}
    (st : Store.Step now s deed s' (some (.nothing expiry))) :
    s'.tally.read m = s.tally.read m := by
  cases st
  rfl

/-- What asks for something else does not turn a meter, whatever comes of it. -/
theorem Store.Step.read_aside (st : Store.Step now s deed s' outcome)
    (aside : ∀ request, deed = .attempt request → request.meter? ≠ some m) :
    s'.tally.read m = s.tally.read m := by
  cases st with
  | sent | returned | deleted =>
    cases m with
    | sent | returned | deleted => first | rfl | exact absurd rfl (aside _ rfl)
  | _ => cases m <;> rfl

/-- A call turns its meter with the step in which it succeeds. -/
theorem Call.Step.read (st : Step canceled now s c s' progress) :
    s'.tally.read m
      = s.tally.read m + if progress.isDone ∧ c.request.meter? = some m then 1 else 0 := by
  cases st with
  | quit => rfl
  | blocked st => exact st.read_nothing m
  | throttled st => exact st.read_failed m
  | @settled s' result st =>
    cases result with
    | ok reply => simpa [Progress.isDone] using st.read_done m
    | error f => exact st.read_failed m

end

namespace Orderly
variable {s : Store}

theorem deleted_le_sent (o : Orderly s) : s.tally.deleted ≤ s.tally.sent := by
  have hsent := o.sent
  have hbalance := o.balance
  omega

/-- Once as many messages have been deleted as were sent, the store is empty. -/
theorem eq_nil_of_sent_le (o : Orderly s) (h : s.tally.sent ≤ s.tally.deleted) :
    s.visible = [] ∧ s.held = [] := by
  have hsent := o.sent
  have hbalance := o.balance
  have hlength := s.length_stock
  constructor
  · refine List.eq_nil_of_length_eq_zero ?_
    omega
  · refine List.eq_nil_of_length_eq_zero ?_
    omega

end Orderly

end Leasework.Queue
