import Leasework.Proofs.Queue.Calls

/-!
# `Leasework.Proofs.Queue.Promise`: what every wait for a batch keeps to

Whatever queue it goes to, a wait for a batch never ends with an empty one, never brings more
messages than it was to bring, and ends canceled only if it has been canceled. That is
`KeepsPromise`. It is what lets a wait for a single message be a wait for a batch of at most one:
`KeepsPromise.of_genuine` derives that part from the others, for queues that do not make up the
failure for an empty batch themselves.

`Call.keepsPromise` shows it of the queue that is kept in memory. A call is led by its steps from
its start to its end, while others do to the store whatever they like between two of them
(`Call.Leads`), so nothing is assumed about the store that an attempt finds.
-/

set_option autoImplicit false

namespace Leasework.Queue

/-! ### The promise -/

/-- What a wait for a batch of at most `limit` messages keeps to, canceled or not:

- `batch`: a batch has a message in it, and no more than the limit;
- `asked`: the wait ends canceled only if it has been canceled;
- `alone`: with a limit of one, waiting for a single message hands on the only message of the
  batch, or the failure of the wait, which is never the one for an empty batch. -/
structure KeepsPromise {α : Type} (limit : Nat) (canceled : Bool)
    (answer : Except Failure (List α)) : Prop where
  batch : ∀ messages, answer = .ok messages → messages ≠ [] ∧ messages.length ≤ limit
  asked : answer = .error .canceled → canceled = true
  alone : limit = 1 → ∀ queue, (∃ m, answer = .ok [m] ∧ single queue answer = .ok m) ∨
    ∃ f, answer = .error f ∧ single queue answer = .error f ∧
      f ≠ .backend ("empty batch from queue " ++ queue)

/-- A batch that is not empty and no longer than one is a single message. -/
theorem KeepsPromise.of_genuine {α : Type} {limit : Nat} {canceled : Bool}
    {answer : Except Failure (List α)}
    (batch : ∀ messages, answer = .ok messages → messages ≠ [] ∧ messages.length ≤ limit)
    (asked : answer = .error .canceled → canceled = true)
    (genuine : ∀ text, answer ≠ .error (.backend text)) : KeepsPromise limit canceled answer := by
  refine ⟨batch, asked, ?_⟩
  rintro rfl queue
  cases answer with
  | error f => exact Or.inr ⟨f, rfl, rfl, fun hf => genuine _ (congrArg Except.error hf)⟩
  | ok messages =>
    obtain ⟨hne, hle⟩ := batch messages rfl
    obtain ⟨m, rfl⟩ := List.length_eq_one_iff.mp
      (Nat.le_antisymm hle (List.length_pos_of_ne_nil hne))
    exact Or.inl ⟨m, rfl, rfl⟩

/-- A failure that is no made-up one keeps the promise, if it is no cancellation that nobody asked
for. -/
theorem KeepsPromise.of_error {α : Type} {limit : Nat} {canceled : Bool} {f : Failure}
    (asked : f = .canceled → canceled = true) (genuine : ∀ text, f ≠ .backend text) :
    KeepsPromise limit canceled (.error f : Except Failure (List α)) :=
  .of_genuine nofun (fun h => asked (Except.error.inj h))
    fun text h => genuine text (Except.error.inj h)

/-- A batch of the right size keeps the promise. -/
theorem KeepsPromise.of_ok {α : Type} {limit : Nat} {canceled : Bool} {messages : List α}
    (some_message : messages ≠ []) (fits : messages.length ≤ limit) :
    KeepsPromise limit canceled (.ok messages) :=
  .of_genuine (fun _ h => Except.ok.inj h ▸ ⟨some_message, fits⟩) nofun nofun

/-! ### The queue in memory -/

namespace Call

/-- The steps that lead a call on, and whether it has been canceled by then. Between two steps the
clock goes on, the call may be canceled, and others may have done anything to the store. -/
inductive Leads (c : Call) : Bool → Call → Prop
  /-- No step has been made. -/
  | here : Leads c false c
  /-- The call is canceled. -/
  | canceled {b : Bool} {c' : Call} (before : Leads c b c') : Leads c true c'
  /-- The call makes a step. -/
  | stepped {b : Bool} {c₁ c' : Call} {now : Nat} {s s' : Store} {move : CallMove}
      (before : Leads c b c₁) (made : c₁.step b now s move = some (s', .going c')) :
      Leads c b c'

section
variable {b : Bool} {c c' : Call}

/-- A call asks for the same thing all the time. -/
theorem Leads.same (leads : c.Leads b c') : c'.request = c.request := by
  induction leads with
  | here => rfl
  | canceled _ ih => exact ih
  | stepped _ made ih => exact (step_cases made).same.2.trans ih

/-- A wait for a batch that ends has a batch of the right size, or was throttled, or has been
canceled. -/
theorem Step.keepsPromise {now most : Nat} {s s' : Store} {result : Except Failure Reply}
    (st : c.Step b now s s' (.ended result)) (hrequest : c.request = .take most) :
    ∃ answer : Except Failure (List Delivery), result = answer.map .batch ∧
      KeepsPromise (atLeastOne most) b answer := by
  cases st with
  | quit asked =>
    exact ⟨.error .canceled, rfl, .of_error (fun _ => asked) nofun⟩
  | settled st =>
    rw [hrequest] at st
    cases st with
    | faulted _ kind hit =>
      -- The only fault that hits a receiver is throttling.
      obtain rfl : kind = .throttle := by
        simpa [Request.faults] using List.mem_of_find?_eq_some hit
      exact ⟨.error _, rfl, .of_error nofun nofun⟩
    | taken _ _ some_visible =>
      refine ⟨.ok _, rfl, .of_ok ?_ ?_⟩
      · simpa [Store.deliveriesOf, List.mapIdx_eq_nil_iff] using some_visible
      · rw [Store.deliveriesOf, List.length_mapIdx]
        exact List.length_take_le _ _
    | lost _ _ through => cases through

/-- A wait for a batch on a store keeps the promise, whoever else uses the store. -/
theorem Leads.keepsPromise {handle : Handle} {most now : Nat} {s s' : Store} {move : CallMove}
    {result : Except Failure Reply} (leads : (start handle (.take most)).Leads b c)
    (made : c.step b now s move = some (s', .ended result)) :
    ∃ answer : Except Failure (List Delivery), result = answer.map .batch ∧
      KeepsPromise (atLeastOne most) b answer :=
  (step_cases made).keepsPromise leads.same

end

end Call

end Leasework.Queue
