import Leasework.Proofs.Work.Marks

/-!
# `Leasework.Proofs.Work.Rounds`: the calls of the work on one request

A *round* is the work on one request together with the keeper of its lease, on queues that answer
as they like and take as long as they like. The handler and the keeper go on side by side, so
calls could overlap; `Round.step` says how the one waits for the other.

`Round.Shown` is the invariant, with one case for each place where a round can be, and one lemma
for each of those who make a move: the keeper, the handler, and the calls. `Round.Run.callsInOrder`
says that every record begins like a lawful one, and is lawful when the round is over.
-/

set_option autoImplicit false

namespace Leasework

/-! ### Rounds -/

namespace Lease

/-- Something that happens to a keeper. -/
inductive KeeperMove (κ : Type) where
  /-- It begins a renewal. -/
  | renew (now : Nat) (call : κ)
  /-- The renewal goes on. -/
  | proceed (call : κ)
  /-- The renewal ends. -/
  | finish (result : Except Queue.Failure Unit)
  /-- It ends. -/
  | rest

namespace Keeper
variable {κ : Type}

/-- Whether a renewal is going on. -/
def isRenewing (k : Keeper κ) : Bool :=
  match k.phase with
  | .renewing _ _ => true
  | _ => false

/-- Makes a move, if it is possible, and says what is on record of it. -/
def step (k : Keeper κ) : KeeperMove κ → Option (Keeper κ × List Work.Mark)
  | .renew now call => (k.begin? now call).map (·, [.renewing])
  | .proceed call => if k.isRenewing then some (k.proceed call, []) else none
  | .finish result =>
    if k.isRenewing then some (k.finish result.isOk, [.renewed result]) else none
  | .rest => k.end?.map (·, [])

end Keeper

end Lease

namespace Work

/-- The work on a request, and the keeper of its lease until it is collected. -/
structure Round (κ : Type) where
  /-- The work. -/
  job : Job κ
  /-- The keeper. -/
  keeper : Option (Lease.Keeper κ)

namespace Round

/-- Something that happens in a round. -/
inductive Move (κ : Type) where
  /-- A move of the keeper. -/
  | keeper (move : Lease.KeeperMove κ)
  /-- The handler answers. -/
  | answer (answer : Answer)
  /-- The keeper is collected; `canceled` says whether a cancellation has been asked for. -/
  | settle (canceled : Bool)
  /-- The call of the work goes on. -/
  | proceed (call : κ)
  /-- The call of the work ends. -/
  | finish (result : Except Queue.Failure Unit)

variable {κ : Type}

/-- A round that begins now. -/
def start (period now : Nat) : Round κ := ⟨.handling, some (.start period now)⟩

/-- The call that begins with a stage of the work. -/
def begun (job : Job κ) : List Mark := job.command?.toList.map .began

/-- Makes a move, if it is possible, and says what is on record of it. -/
def step (start : Command → κ) (id : String) (r : Round κ) : Move κ → Option (Round κ × List Mark)
  | .keeper move => do
    let k ← r.keeper
    let (k, marks) ← k.step move
    some ({ r with keeper := some k }, marks)
  | .answer a => do
    let job ← r.job.answer a
    some (⟨job, r.keeper.map .stop⟩, [.answered a])
  | .settle canceled => do
    let k ← r.keeper
    if k.hasEnded then
      let job ← r.job.settle start id canceled
      some (⟨job, none⟩, .settled canceled :: begun job)
    else none
  | .proceed call =>
    if r.job.call?.isSome then some ({ r with job := r.job.proceed call }, []) else none
  | .finish result => do
    let command ← r.job.command?
    let job ← r.job.finish start result
    some ({ r with job := job }, .ended command result :: begun job)

/-- The rounds that begin at a moment, with what is on record of them. -/
inductive Run (start : Command → κ) (id : String) (period now : Nat) :
    List Mark → Round κ → Prop
  /-- The handler begins its work, and the keeper starts. -/
  | here : Run start id period now [] (.start period now)
  /-- One more move. -/
  | step {marks more : List Mark} {r r' : Round κ} (move : Move κ)
      (before : Run start id period now marks r) (made : r.step start id move = some (r', more)) :
      Run start id period now (marks ++ more) r'

/-- Makes moves one after the other. -/
def play (start : Command → κ) (id : String) (r : Round κ) :
    List (Move κ) → Option (Round κ × List Mark)
  | [] => some (r, [])
  | move :: moves => do
    let (r, marks) ← r.step start id move
    let (r, more) ← r.play start id moves
    some (r, marks ++ more)

/-- What is played is a round. -/
theorem Run.play {start : Command → κ} {id : String} {period now : Nat} {marks more : List Mark}
    {r r' : Round κ} {moves : List (Move κ)} (run : Run start id period now marks r)
    (h : r.play start id moves = some (r', more)) : Run start id period now (marks ++ more) r' := by
  induction moves generalizing r marks more with
  | nil =>
    cases h
    rw [List.append_nil]
    exact run
  | cons move moves ih =>
    simp only [Round.play, bind, Option.bind_eq_some_iff] at h
    obtain ⟨⟨r₁, marks₁⟩, made, ⟨r₂, marks₂⟩, hrest, heq⟩ := h
    cases heq
    rw [← List.append_assoc]
    exact ih (run.step move made) hrest

/-! ### How far a round is from its end -/

/-- The move with which what is going on ends: the handler answers, a call comes to a result, or
the keeper ends or is collected. -/
def next (a : Answer) (result : Except Queue.Failure Unit) (canceled : Bool) (r : Round κ) :
    Move κ :=
  match r.job with
  | .handling => .answer a
  | .settling _ =>
    match r.keeper.map Lease.Keeper.phase with
    | some (.renewing _ _) => .keeper (.finish result)
    | some (.waiting _) => .keeper .rest
    | _ => .settle canceled
  | _ => .finish result

/-- How much has to end before the round is over, at most. -/
def left (r : Round κ) : Nat :=
  match r.job with
  | .handling => 6
  | .settling _ =>
    match r.keeper.map Lease.Keeper.phase with
    | some (.renewing _ _) => 5
    | some (.waiting _) => 4
    | _ => 3
  | .sending _ _ => 2
  | .deleting _ => 1
  | .returning _ _ => 1
  | .over _ => 0

/-- Once the handler has answered a renewal may be going on, and that is the most that is left. -/
theorem left_settling_le (a : Answer) (keeper : Option (Lease.Keeper κ)) :
    left ⟨.settling a, keeper⟩ ≤ 5 := by
  rcases keeper with _ | ⟨period, stopped, phase, renewed, failed⟩
  · exact Nat.le_add_right 3 2
  · cases phase with
    | renewing => exact Nat.le_refl 5
    | waiting => exact Nat.le_succ 4
    | ended => exact Nat.le_add_right 3 2

end Round

end Work

/-! ### The invariant -/

namespace Lease.Keeper
variable {κ : Type} {k k' : Keeper κ} {marks : List Work.Mark}

/-- What a move of a keeper may come to: whether a renewal is going on before it and after it, and
what is on record of it. -/
inductive Keeping (stopped : Bool) : Bool → Bool → List Work.Mark → Prop
  /-- A renewal begins, and nobody has told the keeper to stop. -/
  | began (free : stopped = false) : Keeping stopped false true [.renewing]
  /-- A renewal goes on. -/
  | went : Keeping stopped true true []
  /-- A renewal ends. -/
  | finished (result : Except Queue.Failure Unit) : Keeping stopped true false [.renewed result]
  /-- The keeper has been told to stop, and ends. -/
  | rested (told : stopped = true) : Keeping stopped false false []

/-- Whatever move a keeper makes, it is one of these, and nobody tells the keeper anything. -/
theorem step_keeping {move : KeeperMove κ} (h : k.step move = some (k', marks)) :
    k'.stopped = k.stopped ∧ Keeping k.stopped k.isRenewing k'.isRenewing marks := by
  obtain ⟨period, stopped, phase, renewed, failed⟩ := k
  -- Each move is possible in one phase only.
  cases move with
  | renew now call =>
    obtain ⟨k₁, hbegin, heq⟩ := Option.map_eq_some_iff.mp h
    cases heq
    cases phase with
    | waiting due =>
      simp only [begin?] at hbegin
      split at hbegin
      · cases hbegin
      · rename_i hstopped
        split at hbegin
        · cases hbegin
          exact ⟨rfl, .began (Bool.not_eq_true _ ▸ hstopped)⟩
        · cases hbegin
    | _ => cases hbegin
  | proceed call =>
    cases phase with
    | renewing due call₀ =>
      cases h
      exact ⟨rfl, .went⟩
    | _ => cases h
  | finish result =>
    cases phase with
    | renewing due call₀ =>
      cases h
      refine ⟨?_, ?_⟩
      · cases result <;> rfl
      · cases result <;> exact .finished _
    | _ => cases h
  | rest =>
    obtain ⟨k₁, hend, heq⟩ := Option.map_eq_some_iff.mp h
    cases heq
    cases phase with
    | waiting due =>
      simp only [end?] at hend
      split at hend
      · rename_i htold
        cases hend
        exact ⟨rfl, .rested htold⟩
      · cases hend
    | _ => cases hend

/-- A keeper that has ended makes no renewal. -/
theorem isRenewing_eq_false (h : k.hasEnded = true) : k.isRenewing = false := by
  obtain ⟨period, stopped, phase, renewed, failed⟩ := k
  cases phase with
  | ended => rfl
  | _ => cases h

end Lease.Keeper

namespace Work

section
variable {κ : Type} {id : String} {begin : Command → κ} {marks more : List Mark} {r r' : Round κ}

/-- What is on record of a round that is where it is. -/
inductive Round.Shown (id : String) : List Mark → Round κ → Prop
  /-- The handler is at work, and no renewal is going on. -/
  | waiting {results : List (Except Queue.Failure Unit)} {k : Lease.Keeper κ}
      (free : k.stopped = false) (idle : k.isRenewing = false) :
      Shown id (Mark.renewals results) ⟨.handling, some k⟩
  /-- The handler is at work during a renewal. -/
  | renewing {results : List (Except Queue.Failure Unit)} {k : Lease.Keeper κ}
      (free : k.stopped = false) (busy : k.isRenewing = true) :
      Shown id (Mark.renewals results ++ [.renewing]) ⟨.handling, some k⟩
  /-- The handler has answered. -/
  | settling {a : Answer} {opening : List Mark} {k : Lease.Keeper κ} (told : k.stopped = true)
      (opened : Opening a opening k.isRenewing) : Shown id opening ⟨.settling a, some k⟩
  /-- The response is being sent. -/
  | sending {text : String} {canceled : Bool} {opening : List Mark} {call : κ}
      (opened : Opening (.ok text) opening false) :
      Shown id (opening ++ [.settled canceled, .began (.send text)]) ⟨.sending text call, none⟩
  /-- The request is being deleted. -/
  | deleting {text : String} {canceled : Bool} {opening : List Mark} {call : κ}
      (opened : Opening (.ok text) opening false) :
      Shown id
        (opening ++ [.settled canceled, .began (.send text), .ended (.send text) (.ok ()),
          .began .delete])
        ⟨.deleting call, none⟩
  /-- The request is being given back. -/
  | returning {a : Answer} {canceled : Bool} {opening refusal : List Mark} {result : Result}
      {call : κ} (opened : Opening a opening false)
      (refusing : Refusing id canceled a refusal result) :
      Shown id (opening ++ .settled canceled :: (refusal ++ [.began .giveBack]))
        ⟨.returning result call, none⟩
  /-- The round is over. -/
  | ended {marks : List Mark} {result : Result} (lawful : Lawful id marks result) :
      Shown id marks ⟨.over result, none⟩

namespace Round.Shown

/-- A round that begins has nothing on record. -/
theorem start (id : String) (period now : Nat) :
    (Round.start period now : Round κ).Shown id [] := by
  have hidle : (Lease.Keeper.start period now : Lease.Keeper κ).isRenewing = false := by
    unfold Lease.Keeper.start
    split <;> rfl
  exact @Shown.waiting κ id [] _ rfl hidle

/-- The keeper makes a move, and the work stays where it is. -/
theorem kept {job : Job κ} {k k' : Lease.Keeper κ} (h : Shown id marks ⟨job, some k⟩)
    (hstopped : k'.stopped = k.stopped)
    (keeping : Lease.Keeper.Keeping k.stopped k.isRenewing k'.isRenewing more) :
    Shown id (marks ++ more) ⟨job, some k'⟩ := by
  cases h with
  | @waiting results _ free idle =>
    rw [free, idle] at keeping
    generalize hbusy : k'.isRenewing = busy at keeping
    cases keeping with
    | began => exact .renewing (hstopped.trans free) hbusy
    | rested told =>
      -- Nobody has told the keeper to stop while the handler is at work.
      cases told
  | @renewing results _ free busy =>
    rw [free, busy] at keeping
    generalize hbusy : k'.isRenewing = busy' at keeping
    cases keeping with
    | went =>
      rw [List.append_nil]
      exact .renewing (hstopped.trans free) hbusy
    | finished result =>
      rw [Mark.renewals_concat]
      exact .waiting (hstopped.trans free) hbusy
  | settling told opened =>
    refine .settling (hstopped.trans told) ?_
    rw [told] at keeping
    generalize k.isRenewing = busy at opened keeping
    generalize k'.isRenewing = busy' at keeping
    cases keeping with
    | began free =>
      -- Once the handler has answered, no renewal begins any more.
      cases free
    | finished result => exact opened.renewed result
    | went | rested =>
      rw [List.append_nil]
      exact opened

/-- The handler answers. -/
theorem answered {k : Lease.Keeper κ} (h : Shown id marks ⟨.handling, some k⟩) (a : Answer) :
    Shown id (marks ++ [.answered a]) ⟨.settling a, some k.stop⟩ := by
  have hsame : k.stop.isRenewing = k.isRenewing := rfl
  refine .settling rfl ?_
  rw [hsame]
  cases h with
  | @waiting results _ free idle =>
    rw [idle]
    exact .between results
  | @renewing results _ free busy =>
    rw [busy, List.append_assoc]
    exact .during results

/-- The keeper has ended, and the call begins for which the answer asks. -/
theorem settled {a : Answer} {k : Lease.Keeper κ} {canceled : Bool} {job : Job κ}
    (h : Shown id marks ⟨.settling a, some k⟩) (hended : k.hasEnded = true)
    (hsettle : (Job.settling a).settle begin id canceled = some job) :
    Shown id (marks ++ .settled canceled :: begun job) ⟨job, none⟩ := by
  cases h with
  | settling told opened =>
    rw [Lease.Keeper.isRenewing_eq_false hended] at opened
    cases a with
    | ok text =>
      cases hsettle
      exact .sending opened
    | error refusal =>
      cases hsettle
      exact .returning opened (.refused (Job.yields_refused id canceled refusal))

/-- The call of the work ends, and another one begins, or the round is over. -/
theorem finished {job job' : Job κ} {keeper : Option (Lease.Keeper κ)} {command : Command}
    {result : Except Queue.Failure Unit} (h : Shown id marks ⟨job, keeper⟩)
    (hcommand : job.command? = some command) (hfinish : job.finish begin result = some job') :
    Shown id (marks ++ .ended command result :: begun job') ⟨job', keeper⟩ := by
  cases h with
  | @sending text canceled opening call opened =>
    cases hcommand
    cases result with
    | ok =>
      cases hfinish
      rw [List.append_assoc]
      exact .deleting opened
    | error f =>
      cases hfinish
      rw [List.append_assoc]
      exact .returning opened (.unsent text f)
  | @deleting text canceled opening call opened =>
    cases hcommand
    cases result with
    | ok =>
      cases hfinish
      rw [List.append_assoc]
      exact .ended (.mk opened (.completed text))
    | error f =>
      cases hfinish
      rw [List.append_assoc]
      exact .ended (.mk opened (.undeleted text f))
  | @returning a canceled opening refusal result₀ call opened refusing =>
    cases hcommand
    cases hfinish
    rw [List.append_assoc, List.cons_append, List.append_assoc]
    exact .ended (.mk opened (.returned refusing result))
  | _ => cases hcommand

/-- Every move keeps the record as it should be. -/
theorem step {move : Round.Move κ} (h : Shown id marks r)
    (made : r.step begin id move = some (r', more)) : Shown id (marks ++ more) r' := by
  obtain ⟨job, keeper⟩ := r
  cases move with
  | keeper move =>
    simp only [Round.step, bind, Option.bind_eq_some_iff] at made
    obtain ⟨k, rfl, ⟨k', marks'⟩, hstep, heq⟩ := made
    cases heq
    obtain ⟨hstopped, keeping⟩ := Lease.Keeper.step_keeping hstep
    exact h.kept hstopped keeping
  | answer a =>
    simp only [Round.step, bind, Option.bind_eq_some_iff] at made
    obtain ⟨job', hanswer, heq⟩ := made
    cases heq
    cases h with
    | waiting free idle =>
      cases hanswer
      exact (Shown.waiting free idle).answered a
    | renewing free busy =>
      cases hanswer
      exact (Shown.renewing free busy).answered a
    | _ => cases hanswer
  | settle canceled =>
    simp only [Round.step, bind, Option.bind_eq_some_iff] at made
    obtain ⟨k, rfl, made⟩ := made
    split at made
    · rename_i hended
      obtain ⟨job', hsettle, heq⟩ := Option.bind_eq_some_iff.mp made
      cases heq
      cases job with
      | settling a => exact h.settled hended hsettle
      | _ => cases hsettle
    · cases made
  | proceed call =>
    simp only [Round.step] at made
    split at made
    · cases made
      rw [List.append_nil]
      -- A call that goes on puts nothing on record, and the work stays at the same place.
      cases h with
      | sending opened => exact .sending opened
      | deleting opened => exact .deleting opened
      | returning opened refusing => exact .returning opened refusing
      | waiting free idle => exact .waiting free idle
      | renewing free busy => exact .renewing free busy
      | settling told opened => exact .settling told opened
      | ended lawful => exact .ended lawful
    · cases made
  | finish result =>
    simp only [Round.step, bind, Option.bind_eq_some_iff] at made
    obtain ⟨command, hcommand, job', hfinish, heq⟩ := made
    cases heq
    exact h.finished hcommand hfinish

/-- Whatever is on record is the beginning of a lawful record. -/
theorem exists_lawful (h : Shown id marks r) : ∃ rest result, Lawful id (marks ++ rest) result := by
  cases h with
  -- While the handler is at work any answer will do to go on with.
  | @waiting results =>
    have opened : Opening (.error .canceled) _ _ := .between results
    obtain ⟨rest, result, lawful⟩ := opened.exists_lawful id
    exact ⟨_, result, List.append_assoc _ _ _ ▸ lawful⟩
  | @renewing results =>
    have opened : Opening (.error .canceled) _ _ := .during results
    obtain ⟨rest, result, lawful⟩ := opened.exists_lawful id
    refine ⟨.answered (.error .canceled) :: rest, result, ?_⟩
    rw [List.append_assoc] at lawful ⊢
    exact lawful
  | settling _ opened => exact opened.exists_lawful id
  | @sending text canceled opening _ opened =>
    refine ⟨[.ended (.send text) (.ok ()), .began .delete, .ended .delete (.ok ())],
      .ok .completed, ?_⟩
    rw [List.append_assoc]
    exact .mk opened (.completed text)
  | @deleting text canceled opening _ opened =>
    refine ⟨[.ended .delete (.ok ())], .ok .completed, ?_⟩
    rw [List.append_assoc]
    exact .mk opened (.completed text)
  | @returning _ canceled opening refusal result _ opened refusing =>
    refine ⟨[.ended .giveBack (.ok ())], result, ?_⟩
    rw [List.append_assoc, List.cons_append, List.append_assoc]
    exact .mk opened (.returned refusing (.ok ()))
  | @ended marks result lawful =>
    refine ⟨[], result, ?_⟩
    rw [List.append_nil]
    exact lawful

/-- A round that is over has a lawful record. -/
theorem lawful {result : Result} {keeper : Option (Lease.Keeper κ)}
    (h : Shown id marks ⟨.over result, keeper⟩) : Lawful id marks result := by
  cases h with
  | ended lawful => exact lawful

/-- As soon as what is going on ends, the round comes nearer to its end, whatever it comes to. -/
theorem nearer (h : Shown id marks r) (unfinished : ∀ result, r.job ≠ .over result) (a : Answer)
    (outcome : Except Queue.Failure Unit) (canceled : Bool) :
    ∃ r' more, r.step begin id (r.next a outcome canceled) = some (r', more) ∧
      r'.left < r.left := by
  cases h with
  | waiting => exact ⟨_, _, rfl, Nat.lt_succ_of_le (left_settling_le a _)⟩
  | renewing => exact ⟨_, _, rfl, Nat.lt_succ_of_le (left_settling_le a _)⟩
  | @settling a _ k told =>
    obtain ⟨period, stopped, phase, renewed, failed⟩ := k
    obtain rfl : stopped = true := told
    -- The keeper finishes its renewal, ends, and is collected, one after the other.
    cases phase with
    | renewing due call => cases outcome <;> exact ⟨_, _, rfl, Nat.lt_succ_self 4⟩
    | waiting due => exact ⟨_, _, rfl, Nat.lt_succ_self 3⟩
    | ended =>
      cases a with
      | ok text => exact ⟨_, _, rfl, Nat.lt_succ_self 2⟩
      | error refusal => exact ⟨_, _, rfl, Nat.lt_succ_of_lt (Nat.lt_succ_self 1)⟩
  | sending => cases outcome <;> exact ⟨_, _, rfl, Nat.lt_succ_self 1⟩
  | deleting => cases outcome <;> exact ⟨_, _, rfl, Nat.lt_succ_self 0⟩
  | returning => exact ⟨_, _, rfl, Nat.lt_succ_self 0⟩
  | ended => exact absurd rfl (unfinished _)

end Round.Shown

/-- Every round has on record what it should have. -/
theorem Round.Run.shown {period now : Nat} (run : Run begin id period now marks r) :
    r.Shown id marks := by
  induction run with
  | here => exact .start id period now
  | step move _ made ih => exact ih.step made

/-- The calls of the work on a request come in order, on whatever queues, whatever the handler
answers and the calls come to, and whenever a cancellation is asked for. What is on record is the
beginning of a record that accounts for all calls; it is the whole of it when the round is over;
and until then the round comes nearer to its end with everything that ends. -/
theorem Round.Run.callsInOrder {period now : Nat} (run : Run begin id period now marks r) :
    (∃ rest result, Accounted id (marks ++ rest) result) ∧
    (∀ result, r.job = .over result → Accounted id marks result) ∧
    ((∀ result, r.job ≠ .over result) → ∀ a outcome canceled, ∃ r' more,
      r.step begin id (r.next a outcome canceled) = some (r', more) ∧ r'.left < r.left) := by
  refine ⟨?_, fun result hover => ?_, run.shown.nearer⟩
  · obtain ⟨rest, result, lawful⟩ := run.shown.exists_lawful
    exact ⟨rest, result, lawful.toAccounted⟩
  · obtain ⟨job, keeper⟩ := r
    obtain rfl : job = .over result := hover
    exact run.shown.lawful.toAccounted

end

/-- A handler answers during a renewal. The response is not accepted, and the request cannot be
given back. -/
def unsentResponse : List (Round.Move Unit) :=
  [.keeper (.renew 3 ()), .keeper (.proceed ()), .answer (.ok "done"), .keeper (.finish (.ok ())),
    .keeper .rest, .settle true, .finish (.error (.backend "down")), .proceed (),
    .finish (.error (.leaseLost "requests-1"))]

/-- A handler says that it was canceled, and nobody has asked for it. The request cannot be given
back. -/
def unaskedCancellation : List (Round.Move Unit) :=
  [.answer (.error .canceled), .keeper .rest, .settle false,
    .finish (.error (.leaseLost "requests-1"))]

/-- The failed return does not change the result: neither that the response has not been sent, nor
that the handler has failed. -/
theorem callsInOrder_failedReturn :
    (∃ r marks, (Round.start 3 0).play (fun _ => ()) "requests-1" unsentResponse
        = some (r, marks) ∧
      r.job = .over (.error (.queue .send (.backend "down"))) ∧
      Accounted "requests-1" marks (.error (.queue .send (.backend "down")))) ∧
    ∃ r marks, (Round.start 3 0).play (fun _ => ()) "requests-1" unaskedCancellation
        = some (r, marks) ∧
      r.job = .over (.error (.handler "requests-1"
        (.failed "handler reported cancellation although none was requested"))) ∧
      Accounted "requests-1" marks (.error (.handler "requests-1"
        (.failed "handler reported cancellation although none was requested"))) := by
  have unsent :
      (Round.start 3 0).play (fun _ => ()) "requests-1" unsentResponse = some (_, _) := rfl
  have unasked :
      (Round.start 3 0).play (fun _ => ()) "requests-1" unaskedCancellation = some (_, _) := rfl
  exact ⟨⟨_, _, unsent, rfl, (Round.Run.here.play unsent).callsInOrder.2.1 _ rfl⟩,
    ⟨_, _, unasked, rfl, (Round.Run.here.play unasked).callsInOrder.2.1 _ rfl⟩⟩

end Work

end Leasework
