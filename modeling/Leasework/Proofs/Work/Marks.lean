import Leasework.Proofs.Work.Iterations

/-!
# `Leasework.Proofs.Work.Marks`: the record of the work on one request

What happens in the work on a request is on record as *marks*, the first one first. `Lawful` says
what the whole record looks like when the work is over:

* renewals one after the other, and the answer of the handler, which comes between two renewals or
  during the last one (`Opening`);
* the end of the keeper, with a look at the cancellation;
* the calls that the answer asks for (`Closing`): the response is sent and then the request is
  deleted, or the request is given back.

`Accounted` spells out what follows from that for the calls and the result.
-/

set_option autoImplicit false

namespace Leasework.Work

/-- Something on record of a round. -/
inductive Mark where
  /-- A renewal begins. -/
  | renewing
  /-- A renewal ends. -/
  | renewed (result : Except Queue.Failure Unit)
  /-- The handler answers, and the keeper is told to stop. -/
  | answered (answer : Answer)
  /-- The keeper has ended, and whether a cancellation has been asked for by then. -/
  | settled (canceled : Bool)
  /-- The call of a command begins. -/
  | began (command : Command)
  /-- The call of a command ends. -/
  | ended (command : Command) (result : Except Queue.Failure Unit)

/-! ### Lawful records -/

/-- Renewals one after the other. -/
def Mark.renewals (results : List (Except Queue.Failure Unit)) : List Mark :=
  results.flatMap fun result => [.renewing, .renewed result]

/-- What is on record by the time the handler has answered, and whether a renewal is going on. -/
inductive Opening (a : Answer) : List Mark → Bool → Prop
  /-- The handler answers between two renewals. -/
  | between (results : List (Except Queue.Failure Unit)) :
      Opening a (Mark.renewals results ++ [.answered a]) false
  /-- The handler answers during a renewal. -/
  | during (results : List (Except Queue.Failure Unit)) :
      Opening a (Mark.renewals results ++ [.renewing, .answered a]) true
  /-- The renewal during which the handler has answered is over. -/
  | after (results : List (Except Queue.Failure Unit)) (last : Except Queue.Failure Unit) :
      Opening a (Mark.renewals results ++ [.renewing, .answered a, .renewed last]) false

/-- What a refusal of the handler comes to, given whether a cancellation has been asked for by the
time the keeper has ended. -/
inductive Refusal.Yields (id : String) : (asked : Bool) → Refusal → Result → Prop
  /-- The handler was canceled, and so is the work. -/
  | asked : Yields id true .canceled (.ok .canceled)
  /-- The handler says that it was canceled, and nobody has asked for it. -/
  | unasked :
      Yields id false .canceled
        (.error (.handler id
          (.failed "handler reported cancellation although none was requested")))
  /-- The handler has failed. -/
  | failed (asked : Bool) (text : String) :
      Yields id asked (.failed text) (.error (.handler id (.failed text)))

/-- What is on record after the end of the keeper, up to the return of the request, and the result
that the return cannot change. -/
inductive Refusing (id : String) (canceled : Bool) : Answer → List Mark → Result → Prop
  /-- The response is not accepted. -/
  | unsent (text : String) (f : Queue.Failure) :
      Refusing id canceled (.ok text) [.began (.send text), .ended (.send text) (.error f)]
        (.error (.queue .send f))
  /-- There is no response. -/
  | refused {refusal : Refusal} {result : Result}
      (yields : Refusal.Yields id canceled refusal result) :
      Refusing id canceled (.error refusal) [] result

/-- What is on record after the end of the keeper, and how the round ends. -/
inductive Closing (id : String) (canceled : Bool) : Answer → List Mark → Result → Prop
  /-- The response is accepted, and the request is deleted. -/
  | completed (text : String) :
      Closing id canceled (.ok text)
        [.began (.send text), .ended (.send text) (.ok ()), .began .delete,
          .ended .delete (.ok ())]
        (.ok .completed)
  /-- The response is accepted, and the deletion fails. -/
  | undeleted (text : String) (f : Queue.Failure) :
      Closing id canceled (.ok text)
        [.began (.send text), .ended (.send text) (.ok ()), .began .delete,
          .ended .delete (.error f)]
        (.error (.queue .delete f))
  /-- The request is given back, or the return fails. -/
  | returned {a : Answer} {marks : List Mark} {result : Result}
      (refusing : Refusing id canceled a marks result) (last : Except Queue.Failure Unit) :
      Closing id canceled a (marks ++ [.began .giveBack, .ended .giveBack last]) result

/-- The record of a round that is over, and its result. -/
inductive Lawful (id : String) : List Mark → Result → Prop
  | mk {a : Answer} {canceled : Bool} {opening closing : List Mark} {result : Result}
      (opened : Opening a opening false) (closed : Closing id canceled a closing result) :
      Lawful id (opening ++ .settled canceled :: closing) result

/-! ### What a lawful record says -/

namespace Mark

/-- Whether a renewal begins or ends. -/
def isOfRenewal : Mark → Bool
  | .renewing => true
  | .renewed _ => true
  | _ => false

/-- Whether a call of the work begins or ends. -/
def isOfCall : Mark → Bool
  | .began _ => true
  | .ended _ _ => true
  | _ => false

/-- Whether the request begins to be deleted or given back. -/
def isDisposal : Mark → Bool
  | .began .delete => true
  | .began .giveBack => true
  | _ => false

end Mark

/-- The calls of a round that is over, and its result:

- `lawful`: the record has the shape that it should have;
- `apart`: no renewal begins or ends once a call of the work has begun;
- `sent_iff`: what the handler has answered is sent, and nothing else;
- `deleted_iff`: the request is deleted if and only if the response has been accepted;
- `once`: the request is deleted or given back, only one of them, and once;
- `completed_iff`, `unsent_iff`, `undeleted_iff`: the result tells which of the calls failed;
- `refused`: without a response, the result is what the refusal comes to;
- `returned`: the result is the same whether or not the request could be given back. -/
structure Accounted (id : String) (marks : List Mark) (result : Result) : Prop where
  lawful : Lawful id marks result
  apart : marks.Pairwise fun earlier later => earlier.isOfCall → later.isOfRenewal = false
  sent_iff : ∀ text, .began (.send text) ∈ marks ↔ .answered (.ok text) ∈ marks
  deleted_iff : .began .delete ∈ marks ↔ ∃ text, .ended (.send text) (.ok ()) ∈ marks
  once : marks.countP Mark.isDisposal = 1
  completed_iff : result = .ok .completed ↔ .ended .delete (.ok ()) ∈ marks
  unsent_iff : ∀ f, result = .error (.queue .send f) ↔
    ∃ text, .ended (.send text) (.error f) ∈ marks
  undeleted_iff : ∀ f, result = .error (.queue .delete f) ↔ .ended .delete (.error f) ∈ marks
  refused : ∀ refusal, .answered (.error refusal) ∈ marks →
    ∃ asked, .settled asked ∈ marks ∧ Refusal.Yields id asked refusal result
  returned : ∀ before last last', marks = before ++ [.ended .giveBack last] →
    Lawful id (before ++ [.ended .giveBack last']) result

section
variable {id : String} {marks : List Mark} {result : Result}

/-- The work ends with what the refusal comes to. -/
theorem Job.yields_refused (id : String) (canceled : Bool) (refusal : Refusal) :
    Refusal.Yields id canceled refusal (refused id canceled refusal) := by
  cases refusal with
  | canceled =>
    cases canceled with
    | true => exact .asked
    | false => exact .unasked
  | failed text => exact .failed canceled text

/-- What is on record of a call of the work is not of a renewal. -/
theorem Mark.isOfRenewal_eq_false {mark : Mark} (h : mark.isOfCall = true) :
    mark.isOfRenewal = false := by
  cases mark with
  | began => rfl
  | ended => rfl
  | _ => cases h

/-- Renewals are all that there is on record of renewals. -/
theorem Mark.mem_renewals {results : List (Except Queue.Failure Unit)} {mark : Mark}
    (h : mark ∈ Mark.renewals results) : mark.isOfRenewal = true := by
  obtain ⟨result, -, hmark⟩ := List.mem_flatMap.mp h
  rcases List.mem_pair.mp hmark with rfl | rfl
  · rfl
  · rfl

/-- Before the keeper has ended there are renewals on record, and the answer. -/
theorem Opening.mem {a : Answer} {busy : Bool} (h : Opening a marks busy) {mark : Mark}
    (hmark : mark ∈ marks) : mark.isOfRenewal = true ∨ mark = .answered a := by
  cases h with
  | between results =>
    rcases List.mem_append.mp hmark with hmark | hmark
    · exact Or.inl (Mark.mem_renewals hmark)
    · exact Or.inr (List.mem_singleton.mp hmark)
  | during results =>
    rcases List.mem_append.mp hmark with hmark | hmark
    · exact Or.inl (Mark.mem_renewals hmark)
    · rcases List.mem_pair.mp hmark with rfl | rfl
      · exact Or.inl rfl
      · exact Or.inr rfl
  | after results last =>
    rcases List.mem_append.mp hmark with hmark | hmark
    · exact Or.inl (Mark.mem_renewals hmark)
    · simp only [List.mem_cons, List.not_mem_nil, or_false] at hmark
      rcases hmark with rfl | rfl | rfl
      · exact Or.inl rfl
      · exact Or.inr rfl
      · exact Or.inl rfl

/-- One more renewal. -/
theorem Mark.renewals_concat (results : List (Except Queue.Failure Unit))
    (last : Except Queue.Failure Unit) :
    Mark.renewals results ++ [.renewing] ++ [.renewed last] =
      Mark.renewals (results ++ [last]) := by
  unfold Mark.renewals
  rw [List.flatMap_append, List.flatMap_singleton, List.append_assoc]
  rfl

/-- The renewal during which the handler has answered ends. -/
theorem Opening.renewed {a : Answer} (h : Opening a marks true)
    (last : Except Queue.Failure Unit) : Opening a (marks ++ [.renewed last]) false := by
  cases h with
  | during results =>
    rw [List.append_assoc]
    exact .after results last

/-- A keeper that has been told to stop ends, and a lawful record goes on from there. -/
theorem Opening.exists_lawful {a : Answer} {busy : Bool} (h : Opening a marks busy) (id : String) :
    ∃ rest result, Lawful id (marks ++ rest) result := by
  have hclosing : ∃ closing result, Closing id false a closing result := by
    cases a with
    | ok text => exact ⟨_, _, .completed text⟩
    | error refusal => exact ⟨_, _, .returned (.refused (Job.yields_refused _ _ _)) (.ok ())⟩
  obtain ⟨closing, result, closed⟩ := hclosing
  cases busy with
  | false => exact ⟨_, result, .mk h closed⟩
  | true =>
    have lawful := Lawful.mk (h.renewed (.ok ())) closed
    exact ⟨_, result, List.append_assoc _ _ _ ▸ lawful⟩

/-- The answer is on record before the keeper has ended. -/
theorem Opening.answered_mem {a : Answer} {busy : Bool} (h : Opening a marks busy) :
    .answered a ∈ marks := by
  cases h <;> simp

/-- No call of the work is on record before the keeper has ended. -/
theorem Opening.isOfCall_eq_false {a : Answer} {busy : Bool} (h : Opening a marks busy)
    {mark : Mark} (hmark : mark ∈ marks) : mark.isOfCall = false := by
  rcases h.mem hmark with hrenewal | rfl
  · refine Bool.eq_false_iff.mpr fun hcall => ?_
    rw [Mark.isOfRenewal_eq_false hcall] at hrenewal
    cases hrenewal
  · rfl

/-- After the keeper has ended there are only calls of the work on record. -/
theorem Closing.isOfCall_eq_true {canceled : Bool} {a : Answer}
    (h : Closing id canceled a marks result) : ∀ mark ∈ marks, mark.isOfCall = true := by
  cases h with
  | completed => simp [Mark.isOfCall]
  | undeleted => simp [Mark.isOfCall]
  | returned refusing => cases refusing <;> simp [Mark.isOfCall]

/-- What is on record of calls of the work is on record after the keeper has ended. -/
theorem Opening.mem_iff_of_call {a : Answer} {canceled : Bool} {closing : List Mark}
    (h : Opening a marks false) {mark : Mark} (hcall : mark.isOfCall = true) :
    mark ∈ marks ++ .settled canceled :: closing ↔ mark ∈ closing := by
  rw [List.mem_append, List.mem_cons, or_iff_right, or_iff_right]
  · rintro rfl
    cases hcall
  · intro hmark
    rw [h.isOfCall_eq_false hmark] at hcall
    cases hcall

/-- One answer is on record. -/
theorem answered_mem_iff {a b : Answer} {canceled : Bool} {opening closing : List Mark}
    (opened : Opening a opening false) (closed : Closing id canceled a closing result) :
    .answered b ∈ opening ++ .settled canceled :: closing ↔ b = a := by
  constructor
  · intro hmark
    rcases List.mem_append.mp hmark with hmark | hmark
    · rcases opened.mem hmark with hmark | hmark
      · cases hmark
      · exact Mark.answered.inj hmark
    · rcases List.mem_cons.mp hmark with hmark | hmark
      · cases hmark
      · cases closed.isOfCall_eq_true _ hmark
  · rintro rfl
    exact List.mem_append_left _ opened.answered_mem

/-- The request is deleted or given back once. -/
theorem Lawful.countP_isDisposal (h : Lawful id marks result) :
    marks.countP Mark.isDisposal = 1 := by
  obtain @⟨_, _, opening, _, _, opened, closed⟩ := h
  have hopening : opening.countP Mark.isDisposal = 0 := by
    refine List.countP_eq_zero.mpr fun mark hmark hdisposal => ?_
    have hcall := opened.isOfCall_eq_false hmark
    cases mark with
    | began command => cases hcall
    | _ => cases hdisposal
  rw [List.countP_append, hopening]
  cases closed with
  | completed => rfl
  | undeleted => rfl
  | returned refusing => cases refusing <;> rfl

/-- No renewal begins or ends once a call of the work has begun. -/
theorem Lawful.apart (h : Lawful id marks result) :
    marks.Pairwise fun earlier later => earlier.isOfCall → later.isOfRenewal = false := by
  obtain ⟨opened, closed⟩ := h
  -- Calls are on record only behind the end of the keeper, and behind it there is nothing else.
  refine List.pairwise_append.mpr ⟨?_, List.pairwise_cons.mpr ⟨?_, ?_⟩, ?_⟩
  · refine List.pairwise_of_forall_mem_list fun earlier hearlier later _ hcall => ?_
    rw [opened.isOfCall_eq_false hearlier] at hcall
    cases hcall
  · exact fun _ _ hcall => nomatch hcall
  · exact List.pairwise_of_forall_mem_list fun _ _ later hmark _ =>
      Mark.isOfRenewal_eq_false (closed.isOfCall_eq_true later hmark)
  · intro earlier hearlier later _ hcall
    rw [opened.isOfCall_eq_false hearlier] at hcall
    cases hcall

/-- A record that ends with the return of the request is lawful whatever the return comes to. -/
theorem Lawful.returned (h : Lawful id marks result) {before : List Mark}
    {last : Except Queue.Failure Unit} (hmarks : marks = before ++ [.ended .giveBack last])
    (last' : Except Queue.Failure Unit) :
    Lawful id (before ++ [.ended .giveBack last']) result := by
  obtain @⟨_, canceled, opening, _, _, opened, closed⟩ := h
  have hlast := congrArg List.getLast? hmarks
  cases closed with
  | completed => simp at hlast
  | undeleted => simp at hlast
  | @returned _ refusal _ refusing =>
    -- The return is the last mark, so the rest is what stands before it.
    have hsplit : ∀ r,
        opening ++ .settled canceled :: (refusal ++ [.began .giveBack, .ended .giveBack r]) =
          (opening ++ .settled canceled :: (refusal ++ [.began .giveBack])) ++
            [.ended .giveBack r] := by
      simp
    rw [hsplit] at hmarks
    obtain ⟨hbefore, -⟩ := List.append_inj' hmarks rfl
    rw [← hbefore, ← hsplit]
    exact .mk opened (.returned refusing last')

/-- A lawful record accounts for all calls. -/
theorem Lawful.toAccounted (h : Lawful id marks result) : Accounted id marks result := by
  have hreturned : ∀ before last last', marks = before ++ [.ended .giveBack last] →
      Lawful id (before ++ [.ended .giveBack last']) result :=
    fun _ _ last' hmarks => h.returned hmarks last'
  have happart := h.apart
  have honce := h.countP_isDisposal
  obtain @⟨a, canceled, opening, closing, _, opened, closed⟩ := h
  -- The answer is on record before the end of the keeper and the calls behind it, so every field
  -- that is about them can be read off `closed`.
  have hanswered : ∀ b, .answered b ∈ opening ++ .settled canceled :: closing ↔ b = a :=
    fun _ => answered_mem_iff opened closed
  have hbegan : ∀ command, .began command ∈ opening ++ .settled canceled :: closing ↔
      .began command ∈ closing := fun _ => opened.mem_iff_of_call rfl
  have hended : ∀ command r, .ended command r ∈ opening ++ .settled canceled :: closing ↔
      .ended command r ∈ closing := fun _ _ => opened.mem_iff_of_call rfl
  refine
    { lawful := .mk opened closed
      apart := happart
      sent_iff := fun text => (hbegan _).trans (.trans ?sent (hanswered _).symm)
      deleted_iff := (hbegan _).trans (.trans ?deleted (exists_congr fun text => (hended _ _).symm))
      once := honce
      completed_iff := .trans ?completed (hended _ _).symm
      unsent_iff := fun f => .trans ?unsent (exists_congr fun text => (hended _ _).symm)
      undeleted_iff := fun f => .trans ?undeleted (hended _ _).symm
      refused := ?refused
      returned := hreturned }
  case refused =>
    intro refusal hrefusal
    obtain rfl := (hanswered _).mp hrefusal
    refine ⟨canceled, List.mem_append_right _ List.mem_cons_self, ?_⟩
    cases closed with
    | returned refusing =>
      cases refusing with
      | refused yields => exact yields
  all_goals
    cases closed with
    | completed => simp [eq_comm]
    | undeleted => simp [eq_comm]
    | returned refusing =>
      cases refusing with
      | unsent => simp [eq_comm]
      | refused yields =>
        -- No call has failed, and a refusal is no failure of a call either.
        cases yields <;> simp

end

end Leasework.Work
