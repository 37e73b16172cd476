import Leasework.Proofs.Plant.Acts
import Leasework.Work.Consumer

/-!
# `Leasework.Proofs.Work.Steps`: the steps of a consumer

`Consumer.Step` names everything that a consumer can do, from the wait for a request to the
end of the work on it. `Consumer.step_cases` shows that a consumer does nothing else, and it
is the only place where the body of `Consumer.step` is looked at.

A consumer is *in shape* when the call that it is making is the one that belongs to its
stage: it deletes and gives back its own delivery, through the handle that the delivery came
from. `Consumer.Step.inShape` says that every step keeps that.
-/

set_option autoImplicit false

namespace Leasework.Work

open Queue (Delivery Reply)

namespace Consumer

/-- What a step of a consumer may come to. -/
inductive Step (canceled : Bool) (p : Plant) (c : Consumer) :
    ConsumerMove → Plant → Consumer → Prop
  /-- The wait for a request goes on. -/
  | waited {call call' : Queue.Call} {move : Queue.CallMove} {p₁ : Plant}
      (doing : c.activity = .receiving call)
      (went : p.stepCall canceled call move = some (p₁, .going call')) :
      Step canceled p c (.call move) p₁ { c with activity := .receiving call' }
  /-- A request has come, and the work on it begins. -/
  | began {call : Queue.Call} {move : Queue.CallMove} {p₁ : Plant} {d : Delivery}
      {rest : List Delivery} (doing : c.activity = .receiving call)
      (came : p.stepCall canceled call move = some (p₁, .ended (.ok (.batch (d :: rest))))) :
      Step canceled p c (.call move) (begin p₁ c c.post.requests d).1
        (begin p₁ c c.post.requests d).2
  /-- The wait is over without a request. -/
  | unserved {call : Queue.Call} {move : Queue.CallMove} {p₁ : Plant}
      {r : Except Queue.Failure Reply} {result : Result} (doing : c.activity = .receiving call)
      (ended : p.stepCall canceled call move = some (p₁, .ended r))
      (in_vain : result ≠ .ok .completed) (empty : ∀ d rest, r ≠ .ok (.batch (d :: rest))) :
      Step canceled p c (.call move) (conclude p₁ c result).1 (conclude p₁ c result).2
  /-- A call of the job goes on. -/
  | proceeded {h : Queue.Handle} {d : Delivery} {k : Nat} {job : Job Queue.Call}
      {call call' : Queue.Call} {move : Queue.CallMove} {p₁ : Plant}
      (doing : c.activity = .working h d k job) (calling : job.call? = some call)
      (went : p.stepCall false call move = some (p₁, .going call')) :
      Step canceled p c (.call move) p₁
        { c with activity := .working h d k (job.proceed call') }
  /-- The response has been accepted, and the request is to be deleted. -/
  | sent {h : Queue.Handle} {d : Delivery} {k : Nat} {text : String} {call : Queue.Call}
      {move : Queue.CallMove} {p₁ : Plant} {reply : Reply}
      (doing : c.activity = .working h d k (.sending text call))
      (ended : p.stepCall false call move = some (p₁, .ended (.ok reply))) :
      Step canceled p c (.call move) (p₁.onBoard c.post.board id)
        { c with activity := .working h d k (.deleting (callOf c.post h d .delete)) }
  /-- The response has not been accepted, and the request is to be given back. -/
  | unsent {h : Queue.Handle} {d : Delivery} {k : Nat} {text : String} {call : Queue.Call}
      {move : Queue.CallMove} {p₁ : Plant} {f : Queue.Failure}
      (doing : c.activity = .working h d k (.sending text call))
      (ended : p.stepCall false call move = some (p₁, .ended (.error f))) :
      Step canceled p c (.call move) (p₁.onBoard c.post.board id)
        { c with
          activity :=
            .working h d k (.returning (.error (.queue .send f)) (callOf c.post h d .giveBack)) }
  /-- The last call of the job has ended, and the round is over. -/
  | closed {h : Queue.Handle} {d : Delivery} {k : Nat} {job : Job Queue.Call}
      {call : Queue.Call} {move : Queue.CallMove} {p₁ : Plant}
      {r : Except Queue.Failure Reply} {result : Result}
      (doing : c.activity = .working h d k job) (calling : job.call? = some call)
      (ended : p.stepCall false call move = some (p₁, .ended r))
      (last : job.finish (callOf c.post h d) (r.map fun _ => ()) = some (.over result)) :
      Step canceled p c (.call move)
        (conclude ((p₁.onBoard c.post.board (job.credit (r.map fun _ => ()))).onBoard
          c.post.board .finish) c result).1
        (conclude ((p₁.onBoard c.post.board (job.credit (r.map fun _ => ()))).onBoard
          c.post.board .finish) c result).2
  /-- The handler answers, and the keeper is told to stop. -/
  | answered {h : Queue.Handle} {d : Delivery} {k : Nat} (a : Answer)
      (doing : c.activity = .working h d k .handling) :
      Step canceled p c (.answer a) (p.stopKeeper k)
        { c with activity := .working h d k (.settling a) }
  /-- The handler crashes, and the keeper is left. -/
  | crashed {h : Queue.Handle} {d : Delivery} {k : Nat} (text : String)
      (doing : c.activity = .working h d k .handling) :
      Step canceled p c (.crash text) ((p.onBoard c.post.board .finish).leaveKeeper k)
        (c.leave (.crashed text))
  /-- The keeper has ended, and the response is to be sent. -/
  | settled {h : Queue.Handle} {d : Delivery} {k : Nat} {text : String} {p₁ : Plant}
      {keeper : Lease.Keeper Queue.Call}
      (doing : c.activity = .working h d k (.settling (.ok text)))
      (collected : p.collectKeeper? k = some (p₁, keeper)) :
      Step canceled p c .settle p₁
        { c with activity := .working h d k (.sending text (callOf c.post h d (.send text))) }
  /-- The keeper has ended, and the request is to be given back. -/
  | refused {h : Queue.Handle} {d : Delivery} {k : Nat} {refusal : Refusal} {p₁ : Plant}
      {keeper : Lease.Keeper Queue.Call}
      (doing : c.activity = .working h d k (.settling (.error refusal)))
      (collected : p.collectKeeper? k = some (p₁, keeper)) :
      Step canceled p c .settle p₁
        { c with
          activity :=
            .working h d k
              (.returning (Job.refused d.id canceled refusal) (callOf c.post h d .giveBack)) }

section
variable {canceled : Bool} {p p' : Plant} {c c' : Consumer} {move : ConsumerMove}

/-- The end of the wait for a request: the work begins, or the round is over. -/
theorem received_cases (p : Plant) (c : Consumer) (r : Except Queue.Failure Reply) :
    (∃ d rest, r = .ok (.batch (d :: rest)) ∧
        received p c r = begin p c c.post.requests d) ∨
      ∃ result : Result, result ≠ .ok .completed ∧
        (∀ d rest, r ≠ .ok (.batch (d :: rest))) ∧ received p c r = conclude p c result := by
  rcases r with f | (_ | (_ | ⟨d, rest⟩))
  -- Only a batch with a message in it begins work; every other end is the end of the round.
  · cases f with
    | canceled => exact Or.inr ⟨.ok .canceled, by simp, by simp, rfl⟩
    | _ => exact Or.inr ⟨.error (.queue .receive _), by simp, by simp, rfl⟩
  · exact Or.inr ⟨.error (.queue .receive _), by simp, by simp, rfl⟩
  · exact Or.inr ⟨.error (.queue .receive _), by simp, by simp, rfl⟩
  · exact Or.inl ⟨d, rest, rfl, rfl⟩

/-- Whatever step a consumer makes, it is one of these. -/
theorem step_cases (h : c.step canceled p move = some (p', c')) :
    Step canceled p c move p' c' := by
  cases move with
  | call move =>
    cases hdoing : c.activity with
    | receiving call =>
      simp only [step, hdoing, bind, Option.bind_eq_some_iff] at h
      obtain ⟨⟨p₁, progress⟩, hstep, heq⟩ := h
      cases progress with
      | going call' =>
        cases heq
        exact .waited hdoing hstep
      | ended r =>
        have heq : received p₁ c r = (p', c') := Option.some.inj heq
        rcases received_cases p₁ c r with ⟨d, rest, rfl, he⟩ | ⟨result, hne, hempty, he⟩
        · rw [he] at heq
          cases heq
          exact .began hdoing hstep
        · rw [he] at heq
          obtain ⟨rfl, rfl⟩ := Prod.ext_iff.mp heq
          exact .unserved hdoing hstep hne hempty
    | working handle d k job =>
      simp only [step, hdoing, bind, Option.bind_eq_some_iff] at h
      obtain ⟨call, hcall, ⟨p₁, progress⟩, hstep, heq⟩ := h
      cases progress with
      | going call' =>
        cases heq
        exact .proceeded hdoing hcall hstep
      | ended r =>
        simp only [Option.bind_eq_some_iff] at heq
        obtain ⟨job', hfinish, heq⟩ := heq
        cases job with
        | sending text call₀ =>
          obtain rfl : call₀ = call := Option.some.inj hcall
          cases r with
          | ok reply =>
            cases hfinish
            cases heq
            exact .sent hdoing hstep
          | error f =>
            cases hfinish
            cases heq
            exact .unsent hdoing hstep
        | deleting call₀ =>
          -- Whether the deletion succeeds or fails, the work is over.
          have hover : ∃ result, job' = .over result := by
            cases r with
            | ok reply => exact ⟨_, (Option.some.inj hfinish).symm⟩
            | error f => exact ⟨_, (Option.some.inj hfinish).symm⟩
          obtain ⟨result, rfl⟩ := hover
          obtain ⟨rfl, rfl⟩ := Prod.ext_iff.mp (Option.some.inj heq)
          exact .closed hdoing hcall hstep hfinish
        | returning result₀ call₀ =>
          obtain rfl : job' = .over result₀ := (Option.some.inj hfinish).symm
          obtain ⟨rfl, rfl⟩ := Prod.ext_iff.mp (Option.some.inj heq)
          exact .closed hdoing hcall hstep hfinish
        | _ => cases hcall
    | ended exit =>
      simp only [step, hdoing] at h
      cases h
  | answer a =>
    cases hdoing : c.activity with
    | working handle d k job =>
      simp only [step, hdoing, bind, Option.bind_eq_some_iff] at h
      obtain ⟨job', hanswer, heq⟩ := h
      cases job with
      | handling =>
        cases hanswer
        cases heq
        exact .answered a hdoing
      | _ => cases hanswer
    | _ =>
      simp only [step, hdoing] at h
      cases h
  | crash text =>
    cases hdoing : c.activity with
    | working handle d k job =>
      cases job with
      | handling =>
        simp only [step, hdoing] at h
        cases h
        exact .crashed text hdoing
      | _ =>
        simp only [step, hdoing] at h
        cases h
    | _ =>
      simp only [step, hdoing] at h
      cases h
  | settle =>
    cases hdoing : c.activity with
    | working handle d k job =>
      simp only [step, hdoing, bind, Option.bind_eq_some_iff] at h
      obtain ⟨⟨p₁, keeper⟩, hcollected, job', hsettle, heq⟩ := h
      cases job with
      | settling a =>
        cases a with
        | ok text =>
          cases hsettle
          cases heq
          exact .settled hdoing hcollected
        | error refusal =>
          cases hsettle
          cases heq
          exact .refused hdoing hcollected
      | _ => cases hsettle
    | _ =>
      simp only [step, hdoing] at h
      cases h

/-! ### What a step leaves alone -/

/-- The end of a round is noted on the board, and nowhere else on the plant. -/
theorem conclude_plant (p : Plant) (c : Consumer) (result : Result) :
    ∃ boards, (conclude p c result).1 = { p with boards := boards } := by
  unfold conclude
  split
  · rcases result with f | (_ | _)
    · exact ⟨_, rfl⟩
    · exact ⟨p.boards, rfl⟩
    · exact ⟨p.boards, rfl⟩
  · exact ⟨p.boards, rfl⟩

/-- After a round a consumer waits for the next request, or it ends. -/
theorem conclude_consumer (p : Plant) (c : Consumer) (result : Result) :
    (conclude p c result).2 = { c with activity := .receiving (receive c.post) } ∨
      ∃ exit, (conclude p c result).2 = c.leave exit := by
  unfold conclude
  split
  · rcases result with f | (_ | _)
    · exact Or.inr ⟨_, rfl⟩
    · exact Or.inl rfl
    · exact Or.inr ⟨_, rfl⟩
  · exact Or.inr ⟨_, rfl⟩

/-- A round that is over leaves no work behind. -/
theorem conclude_activity_ne {p : Plant} {c : Consumer} {result : Result} {h : Queue.Handle}
    {d : Delivery} {k : Nat} {job : Job Queue.Call} :
    (conclude p c result).2.activity ≠ .working h d k job := by
  intro heq
  rcases conclude_consumer p c result with he | ⟨exit, he⟩
  · rw [he] at heq
    cases heq
  · rw [he] at heq
    cases heq

/-- A consumer stays at its post. -/
theorem Step.post (st : Step canceled p c move p' c') : c'.post = c.post := by
  have hconclude : ∀ (p : Plant) (result : Result), (conclude p c result).2.post = c.post := by
    intro p result
    rcases conclude_consumer p c result with h | ⟨exit, h⟩
    · rw [h]
    · rw [h]
      rfl
  cases st with
  | unserved => exact hconclude _ _
  | closed => exact hconclude _ _
  | _ => rfl

/-- The call that a consumer is making. -/
def call? (c : Consumer) : Option Queue.Call :=
  match c.activity with
  | .receiving call => some call
  | .working _ _ _ job => job.call?
  | .ended _ => none

/-- The keeper beside the work of a consumer. -/
def keeper? (c : Consumer) : Option Nat :=
  match c.activity with
  | .working _ _ k _ => some k
  | _ => none

/-- What a step does to the plant is an act of the call and the keeper of the consumer. -/
theorem Step.act (st : Step canceled p c move p' c') : p.Act c.call? c.keeper? p' := by
  have hcalling : ∀ {h : Queue.Handle} {d : Delivery} {k : Nat} {job : Job Queue.Call}
      {call : Queue.Call}, c.activity = .working h d k job → job.call? = some call →
      c.call? = some call := by
    intro h d k job call doing calling
    rw [call?, doing]
    exact calling
  cases st with
  | waited doing made => exact .called _ (by rw [call?, doing]) made
  | began doing made => exact .kept _ _ _ _ (by rw [call?, doing]) made
  | unserved doing made =>
    obtain ⟨boards, hplant⟩ := conclude_plant _ c _
    rw [hplant]
    exact .called boards (by rw [call?, doing]) made
  | proceeded doing calling made => exact .called _ (hcalling doing calling) made
  | sent doing made => exact .called _ (hcalling doing rfl) made
  | unsent doing made => exact .called _ (hcalling doing rfl) made
  | closed doing calling made =>
    obtain ⟨boards, hplant⟩ := conclude_plant _ c _
    rw [hplant]
    exact (Plant.Act.called boards (hcalling doing calling) made :)
  | answered _ doing => exact .stopped (by rw [keeper?, doing])
  | crashed _ doing => exact .left _ (by rw [keeper?, doing])
  | settled doing made => exact .collected (by rw [keeper?, doing]) made
  | refused doing made => exact .collected (by rw [keeper?, doing]) made

/-- Work goes on past the handler, or it begins: a request has just come, and a keeper starts
for it. -/
theorem Step.working_cases (st : Step canceled p c move p' c') {h : Queue.Handle} {d : Delivery}
    {k : Nat} {job : Job Queue.Call} (hdoing : c'.activity = .working h d k job) :
    (∃ job', c.activity = .working h d k job' ∧ job ≠ .handling) ∨
      (h = c.post.requests ∧ job = .handling ∧ ∃ call callMove p₁ rest,
        c.activity = .receiving call ∧
        p.stepCall canceled call callMove = some (p₁, .ended (.ok (.batch (d :: rest)))) ∧
        k = p₁.numbered ∧
        p' = ((p₁.onBoard c.post.board .begin).startKeeper h d c.post.period).1) := by
  cases st with
  | waited => cases hdoing
  | @began call callMove p₁ d' rest doing came =>
    cases hdoing
    exact Or.inr ⟨rfl, rfl, call, callMove, p₁, rest, doing, came, rfl, rfl⟩
  | unserved => exact absurd hdoing conclude_activity_ne
  | @proceeded h' d' k' job' call call' callMove p₁ doing calling went =>
    cases hdoing
    refine Or.inl ⟨job', doing, ?_⟩
    -- Only a job that makes a call goes on with it, and the handler makes none.
    cases job' with
    | sending text call₀ => exact nofun
    | deleting call₀ => exact nofun
    | returning result call₀ => exact nofun
    | _ => cases calling
  | sent doing =>
    cases hdoing
    exact Or.inl ⟨_, doing, nofun⟩
  | unsent doing =>
    cases hdoing
    exact Or.inl ⟨_, doing, nofun⟩
  | closed => exact absurd hdoing conclude_activity_ne
  | answered a doing =>
    cases hdoing
    exact Or.inl ⟨_, doing, nofun⟩
  | crashed => cases hdoing
  | settled doing =>
    cases hdoing
    exact Or.inl ⟨_, doing, nofun⟩
  | refused doing =>
    cases hdoing
    exact Or.inl ⟨_, doing, nofun⟩

/-! ### Consumers in shape -/

/-- The call that belongs to what a consumer does. -/
def duty? (c : Consumer) : Option Queue.Call :=
  match c.activity with
  | .receiving _ => some (receive c.post)
  | .working h d _ (.sending text _) => some (callOf c.post h d (.send text))
  | .working h d _ (.deleting _) => some (callOf c.post h d .delete)
  | .working h d _ (.returning _ _) => some (callOf c.post h d .giveBack)
  | _ => none

/-- A consumer is making the call that belongs to what it does, wherever that call has come
to. -/
def InShape (c : Consumer) : Prop := c.call?.map Queue.Call.errand = c.duty?.map Queue.Call.errand

/-- A consumer that waits for its first request is in shape. -/
theorem inShape_waiting (post : Post) (repeats : Bool) : (waiting post repeats).InShape := rfl

/-- A consumer in shape makes the call that belongs to what it does. -/
theorem InShape.errand {call duty : Queue.Call} (hs : c.InShape) (hcall : c.call? = some call)
    (hduty : c.duty? = some duty) : call.handle = duty.handle ∧ call.request = duty.request := by
  rw [InShape, hcall, hduty] at hs
  exact Prod.mk.inj (Option.some.inj hs)

/-- A consumer in shape that makes a call through a delivery works on that delivery, and is
past the handler and the response. -/
theorem InShape.working {call : Queue.Call} {d : Delivery} (hs : c.InShape)
    (hcall : c.call? = some call) (hd : call.request.delivery? = some d) :
    ∃ k, c.activity = .working call.handle d k (.deleting call) ∨
      ∃ result, c.activity = .working call.handle d k (.returning result call) := by
  unfold InShape at hs
  unfold call? at hs hcall
  unfold duty? at hs
  cases hdoing : c.activity with
  | receiving call₀ =>
    simp only [hdoing] at hs hcall
    cases hcall
    have hrequest : call.request = .take 1 := congrArg Prod.snd (Option.some.inj hs)
    rw [hrequest] at hd
    cases hd
  | ended exit =>
    simp only [hdoing] at hcall
    cases hcall
  | working h d₀ k job =>
    simp only [hdoing] at hs hcall
    cases job with
    | sending text call₀ =>
      cases hcall
      have hrequest : call.request = .send text := congrArg Prod.snd (Option.some.inj hs)
      rw [hrequest] at hd
      cases hd
    | deleting call₀ =>
      cases hcall
      have hhandle : call.handle = h := congrArg Prod.fst (Option.some.inj hs)
      have hrequest : call.request = .delete d₀ := congrArg Prod.snd (Option.some.inj hs)
      rw [hrequest] at hd
      cases hd
      rw [hhandle]
      exact ⟨k, Or.inl rfl⟩
    | returning result call₀ =>
      cases hcall
      have hhandle : call.handle = h := congrArg Prod.fst (Option.some.inj hs)
      have hrequest : call.request = .giveBack d₀ := congrArg Prod.snd (Option.some.inj hs)
      rw [hrequest] at hd
      cases hd
      rw [hhandle]
      exact ⟨k, Or.inr ⟨result, rfl⟩⟩
    | _ => cases hcall

/-- Every step keeps a consumer in shape. -/
theorem Step.inShape (st : Step canceled p c move p' c') (hs : c.InShape) : c'.InShape := by
  have hsame : ∀ {b call call' m p₁}, p.stepCall b call m = some (p₁, .going call') →
      call'.errand = call.errand :=
    fun made => Prod.ext (Plant.stepCall_same made).1 (Plant.stepCall_same made).2
  have hconclude : ∀ (p : Plant) (result : Result), (conclude p c result).2.InShape := by
    intro p result
    rcases conclude_consumer p c result with h | ⟨exit, h⟩
    · rw [h]
      rfl
    · rw [h]
      rfl
  cases st with
  | waited doing made =>
    rw [InShape, call?, duty?, doing] at hs
    show some _ = some _
    rw [hsame made]
    exact hs
  | proceeded doing calling made =>
    rw [InShape, call?, duty?, doing] at hs
    rename_i job call call' _
    -- The jobs that make no call cannot go on with one.
    cases job with
    | sending | deleting | returning =>
      cases calling
      show some _ = some _
      rw [hsame made]
      exact hs
    | _ => cases calling
  | unserved => exact hconclude _ _
  | closed => exact hconclude _ _
  | _ => rfl

end

end Consumer

end Leasework.Work
