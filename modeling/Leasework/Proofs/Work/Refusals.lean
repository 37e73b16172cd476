import Leasework.Proofs.Work.Marks
import Leasework.Proofs.World.Parties

/-!
# `Leasework.Proofs.Work.Refusals`: a handler that says it was canceled

A handler that reports a cancellation nobody asked for has failed. Whether anybody has asked is not
looked at when the handler answers, but when the keeper has ended: a renewal may be going on by
then, and it may be throttled for a long time. `UnaskedFails` asks for the first, and
`not_unaskedFails_lateCancellation` is a run without it: the handler answers during a throttled
renewal, and the cancellation comes before that is over.

`Run.refusalJudged` says what holds of every run. Between the answer of the handler and the end of
the work somebody looks at the cancellation once, and the result is what the refusal comes to with
that look. `Judged` is the invariant behind it, on one consumer that keeps its place among the
parties.
-/

set_option autoImplicit false

namespace Leasework

open Work (Consumer ConsumerMove Job Refusal Result)

/-! ### What is seen of a consumer -/

/-- The refusal with which the handler of the consumer at a place answers, with the id of the
request and whether the consumer has been canceled by then. -/
def Occurrence.refusal? (i : Nat) (o : Occurrence) : Option (Bool × String × Refusal) :=
  match o.event, o.before.parties[i]? with
  | .move j (.consumer (.answer (.error refusal))), some ⟨isCanceled, .consumer c⟩ =>
    if j = i then
      match c.activity with
      | .working _ d _ .handling => some (isCanceled, d.id, refusal)
      | _ => none
    else none
  | _, _ => none

/-- What the consumer at a place sees when its keeper has ended and it looks whether it has been
canceled. -/
def Occurrence.look? (i : Nat) (o : Occurrence) : Option Bool :=
  match o.event, o.before.parties[i]? with
  | .move j (.consumer .settle), some ⟨isCanceled, .consumer _⟩ =>
    if j = i then some isCanceled else none
  | _, _ => none

/-- How the consumer at a place has finished. -/
def World.result? (i : Nat) (w : World) : Option Result :=
  match w.parties[i]? with
  | some ⟨_, .consumer c⟩ =>
    match c.exit? with
    | some (.finished result) => some result
    | _ => none
  | _ => none

/-- A handler that says it was canceled when nobody had asked for it has failed. -/
def UnaskedFails : Prop :=
  ∀ stores past w later o earlier i id result, Run stores (fun _ _ => True) past w →
    past = later ++ o :: earlier → o.refusal? i = some (false, id, .canceled) →
    w.result? i = some result →
    result = .error (.handler id
      (.failed "handler reported cancellation although none was requested"))

/-! ### From the answer to the end -/

/-- A consumer has been refused, and goes on with it: what has happened since, and who is at its
place. -/
inductive Judged (i : Nat) (id : String) (refusal : Refusal) (since : List Occurrence) :
    Party → Prop
  /-- The keeper has not ended. -/
  | settling {isCanceled : Bool} {c : Consumer} {h : Queue.Handle} {d : Queue.Delivery} {k : Nat}
      (doing : c.activity = .working h d k (.settling (.error refusal))) (same : d.id = id) :
      Judged i id refusal since ⟨isCanceled, .consumer c⟩
  /-- The cancellation has been looked at, and the request is being given back. -/
  | returning {isCanceled canceled : Bool} {c : Consumer} {h : Queue.Handle} {d : Queue.Delivery}
      {k : Nat} {call : Queue.Call} {o : Occurrence} {result : Result} (seen : o ∈ since)
      (look : o.look? i = some canceled) (yields : Refusal.Yields id canceled refusal result)
      (doing : c.activity = .working h d k (.returning result call)) :
      Judged i id refusal since ⟨isCanceled, .consumer c⟩
  /-- The consumer has finished. -/
  | finished {isCanceled canceled : Bool} {c : Consumer} {o : Occurrence} {result : Result}
      (seen : o ∈ since) (look : o.look? i = some canceled)
      (yields : Refusal.Yields id canceled refusal result)
      (doing : c.activity = .ended (.finished result)) :
      Judged i id refusal since ⟨isCanceled, .consumer c⟩
  /-- The consumer has been dropped. -/
  | dropped {isCanceled : Bool} : Judged i id refusal since ⟨isCanceled, .gone⟩

namespace Work

/-- No refusal comes to the completion of the work. -/
theorem Refusal.Yields.ne_completed {id : String} {asked : Bool} {refusal : Refusal}
    {result : Result} (yields : Yields id asked refusal result) : result ≠ .ok .completed := by
  cases yields <;> simp

/-- A consumer that has not completed its round ends with the result. -/
theorem Consumer.conclude_of_ne_completed (p : Plant) (c : Consumer) {result : Result}
    (h : result ≠ .ok .completed) : (conclude p c result).2 = c.leave (.finished result) := by
  unfold conclude
  split
  · rcases result with f | (_ | _)
    · rfl
    · exact absurd rfl h
    · rfl
  · rfl

end Work

section
variable {i : Nat} {id : String} {refusal : Refusal} {since : List Occurrence}

/-- What has been judged stays judged while more happens elsewhere, and whoever is canceled. -/
theorem Judged.more {isCanceled : Bool} {task : Task}
    (j : Judged i id refusal since ⟨isCanceled, task⟩) (o : Occurrence) (isCanceled' : Bool) :
    Judged i id refusal (o :: since) ⟨isCanceled', task⟩ := by
  cases j with
  | settling doing same => exact .settling doing same
  | returning seen look yields doing =>
    exact .returning (List.mem_cons_of_mem _ seen) look yields doing
  | finished seen look yields doing =>
    exact .finished (List.mem_cons_of_mem _ seen) look yields doing
  | dropped => exact .dropped

/-- A party that is a consumer makes a step of the consumer. -/
theorem Party.step_consumer {p p' : Plant} {isCanceled : Bool} {c : Consumer} {party' : Party}
    {move : PartyMove} (h : (⟨isCanceled, .consumer c⟩ : Party).step p move = some (p', party')) :
    ∃ made c', move = .consumer made ∧ c.Step isCanceled p made p' c' ∧
      party' = ⟨isCanceled, .consumer c'⟩ := by
  cases move with
  | consumer made =>
    simp only [Party.step, bind, Option.bind_eq_some_iff] at h
    obtain ⟨⟨p₁, c'⟩, hstep, heq⟩ := h
    cases heq
    exact ⟨made, c', rfl, Consumer.step_cases hstep, rfl⟩
  | _ => cases h

/-- A consumer that has been refused goes on with it in every step. -/
theorem Judged.step {o : Occurrence} {p p' : Plant} {isCanceled : Bool} {c c' : Consumer}
    {made : ConsumerMove} (j : Judged i id refusal since ⟨isCanceled, .consumer c⟩)
    (there : o.before.parties[i]? = some ⟨isCanceled, .consumer c⟩)
    (event : o.event = .move i (.consumer made)) (st : c.Step isCanceled p made p' c') :
    Judged i id refusal (o :: since) ⟨isCanceled, .consumer c'⟩ := by
  cases j with
  | settling doing same =>
    subst same
    cases st with
    | refused doing' =>
      cases doing.symm.trans doing'
      refine .returning List.mem_cons_self ?_ (Job.yields_refused _ _ _) rfl
      simp only [Occurrence.look?, event, there, if_true]
    | proceeded doing' calling | closed doing' calling =>
      cases doing.symm.trans doing'
      cases calling
    | waited doing' | began doing' | unserved doing' | sent doing' | unsent doing'
    | answered _ doing' | crashed _ doing' | settled doing' => cases doing.symm.trans doing'
  | returning seen look yields doing =>
    cases st with
    | proceeded doing' calling =>
      cases doing.symm.trans doing'
      exact .returning (List.mem_cons_of_mem _ seen) look yields rfl
    | closed doing' calling _ last =>
      cases doing.symm.trans doing'
      cases last
      refine .finished (List.mem_cons_of_mem _ seen) look yields ?_
      rw [Consumer.conclude_of_ne_completed _ _ yields.ne_completed]
      rfl
    | waited doing' | began doing' | unserved doing' | sent doing' | unsent doing'
    | answered _ doing' | crashed _ doing' | settled doing' | refused doing' =>
      cases doing.symm.trans doing'
  | finished seen look yields doing =>
    -- A consumer that has finished makes no step.
    cases st with
    | waited doing' | began doing' | unserved doing' | proceeded doing' | sent doing'
    | unsent doing' | closed doing' | answered _ doing' | crashed _ doing' | settled doing'
    | refused doing' => cases doing.symm.trans doing'

/-- An event with which a handler refuses is a move of the consumer that it works for. -/
theorem Occurrence.refusal?_eq_some {o : Occurrence} {canceled : Bool}
    (h : o.refusal? i = some (canceled, id, refusal)) :
    ∃ c handle d k, o.event = .move i (.consumer (.answer (.error refusal))) ∧
      o.before.parties[i]? = some ⟨canceled, .consumer c⟩ ∧
      c.activity = .working handle d k .handling ∧ d.id = id := by
  unfold refusal? at h
  split at h
  · rename_i event there
    split at h
    · rename_i hj
      split at h
      · rename_i doing
        cases h
        exact ⟨_, _, _, _, hj ▸ event, there, doing, rfl⟩
      · cases h
    · cases h
  · cases h

/-- When a handler refuses, its consumer waits for its keeper. -/
theorem Judged.answered {p p' : Plant} {isCanceled : Bool} {c c' : Consumer} {h : Queue.Handle}
    {d : Queue.Delivery} {k : Nat}
    (st : c.Step isCanceled p (.answer (.error refusal)) p' c')
    (doing : c.activity = .working h d k .handling) (same : d.id = id) :
    Judged i id refusal since ⟨isCanceled, .consumer c'⟩ := by
  cases st with
  | answered _ doing' =>
    cases doing.symm.trans doing'
    exact .settling rfl same

/-- A consumer that is refused with an event waits for its keeper afterwards. -/
theorem Judged.of_refusal? {o : Occurrence} {canceled : Bool}
    (h : o.refusal? i = some (canceled, id, refusal))
    (happens : o.before.step o.event = some o.after) :
    ∃ there ∈ o.after.parties[i]?, Judged i id refusal [] there := by
  obtain ⟨c, handle, d, k, event, there, doing, same⟩ := Occurrence.refusal?_eq_some h
  have hstep := World.step_party happens i
  rw [event, there] at hstep
  generalize o.after.parties[i]? = after at hstep ⊢
  cases hstep with
  | stayed _ no_move => exact absurd rfl (no_move _)
  | moved made =>
    obtain ⟨_, c', hmade, st, rfl⟩ := Party.step_consumer made
    cases hmade
    exact ⟨_, rfl, .answered st doing same⟩

/-- What has been refused is judged, whatever happens. -/
theorem Run.judged {stores : List Queue.Store} {may : World → Event → Prop}
    {past later earlier : List Occurrence} {w : World} {o : Occurrence} {canceled : Bool}
    (run : Run stores may past w) (hpast : past = later ++ o :: earlier)
    (h : o.refusal? i = some (canceled, id, refusal)) :
    ∃ there ∈ w.parties[i]?, Judged i id refusal later there := by
  refine run.since (P := fun since v => ∃ there ∈ v.parties[i]?, Judged i id refusal since there)
    hpast (Judged.of_refusal? h (run.exists_before hpast).2.2) ?_
  rintro since v event v' - happens ⟨there, hthere, j⟩
  have hthere : v.parties[i]? = some there := hthere
  have hstep := World.step_party happens i
  rw [hthere] at hstep
  generalize v'.parties[i]? = after at hstep ⊢
  cases hstep with
  | stayed => exact ⟨_, rfl, j.more _ _⟩
  | canceled => exact ⟨_, rfl, j.more _ _⟩
  | dropped => exact ⟨_, rfl, .dropped⟩
  | @moved _ party' move made =>
    refine ⟨party', rfl, ?_⟩
    obtain ⟨isCanceled, task⟩ := there
    -- Only a consumer is judged, unless it has been dropped.
    cases task with
    | consumer c =>
      obtain ⟨_, c', rfl, st, rfl⟩ := Party.step_consumer made
      exact j.step hthere rfl st
    | gone => cases move <;> cases made
    | _ => cases j

/-- If the handler of a consumer has refused a request, by now the consumer has looked once whether
it was canceled or not, or it has not finished. The result is what the refusal comes to with that
look: a cancellation that the handler reports is one exactly if it is there when the keeper has
ended, and otherwise the handler has failed. -/
theorem Run.refusalJudged {stores : List Queue.Store} {may : World → Event → Prop}
    {past later earlier : List Occurrence} {w : World} {o : Occurrence} {canceled : Bool}
    {result : Result} (run : Run stores may past w) (hpast : past = later ++ o :: earlier)
    (h : o.refusal? i = some (canceled, id, refusal)) (ended : w.result? i = some result) :
    ∃ o₁ ∈ later, ∃ asked, o₁.look? i = some asked ∧ Refusal.Yields id asked refusal result := by
  obtain ⟨there, hthere, j⟩ := run.judged hpast h
  have hthere : w.parties[i]? = some there := hthere
  unfold World.result? at ended
  rw [hthere] at ended
  cases j with
  | settling doing => simp [Consumer.exit?, doing] at ended
  | returning _ _ _ doing => simp [Consumer.exit?, doing] at ended
  | @finished _ asked _ o₁ _ seen look yields doing =>
    simp only [Consumer.exit?, doing, Option.some.injEq] at ended
    exact ⟨o₁, seen, asked, look, ended ▸ yields⟩
  | dropped => simp at ended

end

/-- The lease of a request is four seconds, and a throttled renewal is tried again half a second
later. The first renewal is due after three seconds and is throttled. At 3.1 seconds the handler
says that it was canceled, at 3.2 the consumer is canceled, and at 3.5 the renewal is over. -/
def lateCancellation : List Event :=
  [.move 1 (.consumer (.call .go)), .move 1 (.consumer .settle), .keeper 0, .keeper 0,
    .advance 3500, .cancel 1, .advance 3200, .move 1 (.consumer (.answer (.error .canceled))),
    .advance 3100, .keeper 0, .advance 3000, .inject 0 .throttle 1, .advance 2000,
    .move 1 (.consumer (.call .go)),
    .join ⟨false, .consumer (.waiting ⟨⟨0, ⟨true, 500000000⟩⟩, ⟨1, .none⟩, 0, 3000000000⟩ false)⟩,
    .move 0 (.call .go), .join ⟨false, .call (.start ⟨0, .none⟩ (.send "job"))⟩, .board]

/-- The consumer finishes canceled. -/
theorem exists_run_lateCancellation : ∃ past w later o earlier,
    Run [.empty "requests" 4000000000, .empty "responses" 4000000000] (fun _ _ => True) past w ∧
      past = later ++ o :: earlier ∧ o.refusal? 1 = some (false, "requests-1", .canceled) ∧
      w.result? 1 = some (.ok .canceled) := by
  have hplayed : ∃ run ∈ World.play
        [.empty "requests" 4000000000, .empty "responses" 4000000000] lateCancellation,
      (∃ o ∈ run.1, o.refusal? 1 = some (false, "requests-1", .canceled)) ∧
        run.2.result? 1 = some (.ok .canceled) := by
    decide
  obtain ⟨⟨past, w⟩, hplay, ⟨o, ho, refused⟩, ended⟩ := hplayed
  obtain ⟨later, earlier, hpast⟩ := List.append_of_mem ho
  exact ⟨past, w, later, o, earlier, Run.play hplay fun _ _ => trivial, hpast, refused, ended⟩

/-- A handler that says it was canceled, when nobody has asked for it, need not have failed. -/
theorem not_unaskedFails_lateCancellation : ¬ UnaskedFails := by
  intro law
  obtain ⟨past, w, later, o, earlier, run, hpast, refused, ended⟩ := exists_run_lateCancellation
  cases law _ _ _ _ _ _ _ _ _ run hpast refused ended

/-- There has been a look since the answer, and it has seen the cancellation. -/
theorem refusalJudged_lateCancellation : ∃ (later : List Occurrence) (w : World),
    w.result? 1 = some (.ok .canceled) ∧ ∃ o₁ ∈ later, o₁.look? 1 = some true := by
  obtain ⟨past, w, later, o, earlier, run, hpast, refused, ended⟩ := exists_run_lateCancellation
  obtain ⟨o₁, seen, asked, look, yields⟩ := run.refusalJudged hpast refused ended
  cases yields
  exact ⟨later, w, ended, o₁, seen, look⟩

end Leasework
