import Leasework.Broker.Receiver

/-!
# `Leasework.Proofs.Broker.Course`: what a receiver and its broker say to each other

`Receiver.Turn` says what anything that happens makes of a receiver, one constructor for each way it
can go on, with what decided it. `Receiver.step_cases` shows that these are all the ways, so later
proofs take turns apart and never unfold a step.

A `Receiver.Course` is a wait from its start on, with every answered command on record, the newest one
first. Nothing is assumed about what the broker answers, about when it does, about connections that
cannot be opened, or about the pool that others use as well.
-/

set_option autoImplicit false

namespace Leasework.Broker

open Queue (Failure)

/-- A command and what the broker has answered. -/
structure Exchange where
  /-- The command. -/
  command : Command
  /-- The answer. -/
  answer : Answer

namespace Receiver

/-! ### Turns -/

/-- What something that happens makes of a receiver. -/
inductive Turn (canceled : Bool) (now : Nat) (r : Receiver) : Happening → Receiver → Prop
  /-- The wait is given up. -/
  | quit {happening : Happening} (silent : ∀ a, happening ≠ .answer a) (asked : canceled = true)
      (going : ∀ result, r.phase ≠ .ended result) :
      Turn canceled now r happening (r.enter (.ended (.error .canceled)))
  /-- An attempt begins. -/
  | begun (phase : r.phase = .ready) : Turn canceled now r .begin (r.enter (.reclaiming false))
  /-- The broker does not know the script, which is run once more. -/
  | unknown {a : Answer} (phase : r.phase = .reclaiming false) (unknown : isUnknownScript a = true) :
      Turn canceled now r (.answer a) (r.enter (.reclaiming true))
  /-- Nothing has expired, so new entries are to be read. -/
  | unclaimed {again : Bool} {a : Answer} {next : Phase} (phase : r.phase = .reclaiming again)
      (answer : expect Value.reclaimed? a = .ok [])
      (reads : next = .connecting ∨ ∃ connection, next = .reading connection) :
      Turn canceled now r (.answer a) (r.enter next)
  /-- Entries have been claimed, or they could not be. -/
  | claimed {again : Bool} {a : Answer} {result : Except Failure (List Entry)}
      (phase : r.phase = .reclaiming again) (answer : expect Value.reclaimed? a = result)
      (some_entry : result ≠ .ok []) : Turn canceled now r (.answer a) (settle now r result)
  /-- New entries have been read. -/
  | read {connection : Nat} {a : Answer} {entries : List RawEntry}
      (phase : r.phase = .reading connection) (answer : expect Value.read? a = .ok entries) :
      Turn canceled now r (.answer a) (sift now r [] entries)
  /-- New entries could not be read. -/
  | unread {connection : Nat} {a : Answer} {f : Failure} (phase : r.phase = .reading connection)
      (answer : expect Value.read? a = .error f) :
      Turn canceled now r (.answer a) (settle now r (.error f))
  /-- An entry without a body has been acknowledged. -/
  | acknowledged {kept : List Entry} {id : String} {rest : List RawEntry} {a : Answer} {n : Int}
      (phase : r.phase = .acknowledging kept id rest) (answer : expect Value.integer? a = .ok n) :
      Turn canceled now r (.answer a) (sift now r kept rest)
  /-- An entry without a body could not be acknowledged. -/
  | unacknowledged {kept : List Entry} {id : String} {rest : List RawEntry} {a : Answer}
      {f : Failure} (phase : r.phase = .acknowledging kept id rest)
      (answer : expect Value.integer? a = .error f) :
      Turn canceled now r (.answer a) (settle now r (.error f))
  /-- A connection has been opened. -/
  | connected (connection : Nat) (phase : r.phase = .connecting) :
      Turn canceled now r (.connected (.ok ())) (r.enter (.reading connection))
  /-- No connection could be opened. -/
  | unconnected {f : Failure} (phase : r.phase = .connecting) :
      Turn canceled now r (.connected (.error f)) (settle now r (.error f))
  /-- The backoff is over. -/
  | rested {till : Nat} (phase : r.phase = .resting till) :
      Turn canceled now r .rested (r.enter .ready)

section
variable {canceled : Bool} {now : Nat} {p p' : Pool} {r r' : Receiver} {happening : Happening}

/-- The reclaim script has answered. -/
theorem reclaimed_turn {again : Bool} (phase : r.phase = .reclaiming again) (a : Answer) :
    Turn canceled now r (.answer a) (reclaimed now p r again a).2 := by
  unfold reclaimed
  split
  · rename_i hagain
    obtain ⟨hunknown, hfirst⟩ := Bool.and_eq_true_iff.mp hagain
    obtain rfl : again = false := by simpa using hfirst
    exact .unknown phase hunknown
  · split
    · rename_i hnothing
      unfold checkOut
      split
      · exact .unclaimed phase hnothing (Or.inr ⟨_, rfl⟩)
      · exact .unclaimed phase hnothing (Or.inl rfl)
    · rename_i hsome
      exact .claimed phase rfl hsome

/-- A read has been answered. -/
theorem hasRead_turn {connection : Nat} (phase : r.phase = .reading connection) (a : Answer) :
    Turn canceled now r (.answer a) (hasRead now p r connection a).2 := by
  unfold hasRead
  split
  · rename_i hread
    exact .read phase hread
  · rename_i hunread
    exact .unread phase hunread

/-- An acknowledgement has been answered. -/
theorem acknowledged_turn {kept : List Entry} {id : String} {rest : List RawEntry}
    (phase : r.phase = .acknowledging kept id rest) (a : Answer) :
    Turn canceled now r (.answer a) (acknowledged now r kept rest a) := by
  unfold acknowledged
  split
  · rename_i hacknowledged
    exact .acknowledged phase hacknowledged
  · rename_i hfailed
    exact .unacknowledged phase hfailed

/-- A step of a receiver is one of its turns. -/
theorem step_cases (made : r.step canceled now p happening = some (p', r')) :
    Turn canceled now r happening r' := by
  cases happening with
  | begin =>
    simp only [step] at made
    split at made
    case h_2 => cases made
    rename_i phase
    split at made <;> cases made
    · rename_i asked
      exact .quit nofun asked fun _ hended => Phase.noConfusion (phase.symm.trans hended)
    · exact .begun phase
  | answer a =>
    simp only [step] at made
    split at made
    case h_4 => cases made
    all_goals
      rename_i phase
      obtain ⟨-, rfl⟩ := Prod.ext_iff.mp (Option.some.inj made)
    · exact reclaimed_turn phase a
    · exact hasRead_turn phase a
    · exact acknowledged_turn phase a
  | connected result =>
    simp only [step] at made
    split at made
    case h_3 => cases made
    all_goals
      rename_i phase
      cases made
    · exact .connected _ phase
    · exact .unconnected phase
  | rested =>
    simp only [step] at made
    split at made
    case h_2 => cases made
    rename_i till phase
    split at made <;> cases made
    exact .rested phase
  | cancel =>
    simp only [step] at made
    split at made
    · cases made
    · rename_i going
      split at made <;> cases made
      rename_i asked
      exact .quit nofun asked going

/-- After a failed attempt a receiver rests, or its wait is over. -/
theorem settle_error_cases (now : Nat) (r : Receiver) (f : Failure) :
    (r.client.patience.triesAgain (.error f : Except Failure (List Entry)) = true ∧
        settle now r (.error f) = r.enter (.resting (now + r.client.patience.backoff))) ∨
      settle now r (.error f) = r.enter (.ended (.error f)) := by
  unfold settle
  split
  · rename_i again
    exact Or.inl ⟨again, rfl⟩
  · exact Or.inr rfl

theorem client_settle (now : Nat) (r : Receiver) (result : Except Failure (List Entry)) :
    (settle now r result).client = r.client := by
  unfold settle
  split
  · rfl
  · split <;> rfl

theorem client_sift (now : Nat) (r : Receiver) (kept : List Entry) (rest : List RawEntry) :
    (sift now r kept rest).client = r.client := by
  induction rest generalizing kept with
  | nil => exact client_settle now r (.ok kept)
  | cons raw rest ih =>
    obtain ⟨id, body⟩ := raw
    cases body with
    | some body => exact ih _
    | none => rfl

/-- A receiver stays with its client. -/
theorem Turn.client (turn : Turn canceled now r happening r') : r'.client = r.client := by
  cases turn with
  | claimed => exact client_settle now r _
  | read => exact client_sift now r _ _
  | unread => exact client_settle now r _
  | acknowledged => exact client_sift now r _ _
  | unacknowledged => exact client_settle now r _
  | unconnected => exact client_settle now r _
  | _ => rfl

/-- A wait that is over is led nowhere. -/
theorem Turn.going (turn : Turn canceled now r happening r')
    (result : Except Failure (List Entry)) : r.phase ≠ .ended result := by
  intro hended
  cases turn with
  | quit _ _ going => exact going result hended
  | begun phase | unknown phase | unclaimed phase | claimed phase | read phase | unread phase
  | acknowledged phase | unacknowledged phase | connected _ phase | unconnected phase
  | rested phase =>
    rw [phase] at hended
    cases hended

end

/-! ### Waits on record -/

/-- The courses of a wait. Between two happenings the clock goes on, the receiver may be canceled, and
others use the pool. -/
inductive Course (r : Receiver) : List Exchange → Receiver → Prop
  /-- Nothing has happened. -/
  | here : Course r [] r
  /-- The broker answers a command. -/
  | answered {past : List Exchange} {r₁ r' : Receiver} {canceled : Bool} {now : Nat} {p p' : Pool}
      {x : Exchange} (before : Course r past r₁) (asks : r₁.command? = some x.command)
      (made : r₁.step canceled now p (.answer x.answer) = some (p', r')) : Course r (x :: past) r'
  /-- Something else happens. -/
  | led {past : List Exchange} {r₁ r' : Receiver} {canceled : Bool} {now : Nat} {p p' : Pool}
      {happening : Happening} (before : Course r past r₁) (silent : ∀ a, happening ≠ .answer a)
      (made : r₁.step canceled now p happening = some (p', r')) : Course r past r'

theorem Course.client {r r' : Receiver} {past : List Exchange} (course : r.Course past r') :
    r'.client = r.client := by
  induction course with
  | here => rfl
  | answered _ _ made ih => exact (step_cases made).client.trans ih
  | led _ _ made ih => exact (step_cases made).client.trans ih

end Receiver

end Leasework.Broker
