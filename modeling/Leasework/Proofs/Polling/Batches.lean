import Leasework.Polling.Client
import Leasework.Proofs.Queue.Promise

/-!
# `Leasework.Proofs.Polling.Batches`: waiting for a batch by polling

`Session.performUnless_cases` says what may become of a request whose wait may be canceled. From it
one round of polling follows, and by induction on the rounds the whole wait: it asks for messages
and for nothing else, always for the same number of them, and it keeps the promise of every wait
(`Client.keepsPromise`).

That a batch is not too large rests on the service. `Session.GivesOut` says that no reply holds
more messages than a number.
-/

set_option autoImplicit false

namespace Leasework.Polling

open Queue (Failure KeepsPromise Notice canceledBy)

namespace Session

/-- No reply to come holds more than so many messages. -/
def GivesOut (most : Nat) (s : Session) : Prop :=
  ∀ reply ∈ s.replies, ∀ response, reply.outcome = .ok response → response.messages.length ≤ most

section
variable {cancelAt : Option Nat} {notice : Notice} {s s' : Session} {r : Request}

/-- What is asked takes the next reply, or finds none left, which is an empty response. -/
theorem ask_cases (s : Session) (r : Request) :
    (s.ask r).1.requests = (s.now, r) :: s.requests ∧
      (∀ reply ∈ (s.ask r).1.replies, reply ∈ s.replies) ∧
      ((s.ask r).2 ∈ s.replies ∨ (s.ask r).2.outcome = .ok .empty) := by
  unfold ask
  cases hreplies : s.replies with
  | nil => exact ⟨rfl, by simp, Or.inr rfl⟩
  | cons reply rest =>
    exact ⟨rfl, fun _ => List.mem_cons_of_mem _, Or.inl List.mem_cons_self⟩

/-- What may become of a request whose wait may be canceled: the cancellation is noticed before the
request is made or while it is waited for, or the reply is the result. No reply is put back. -/
theorem performUnless_cases {result : Except Failure Response}
    (h : s.performUnless cancelAt notice r = (s', result)) :
    (∀ reply ∈ s'.replies, reply ∈ s.replies) ∧
      (s'.requests = s.requests ∨ ∃ now, s'.requests = (now, r) :: s.requests) ∧
      (result = .error .canceled ∧ canceledBy cancelAt s'.now = true ∨
        ∃ reply, (reply ∈ s.replies ∨ reply.outcome = .ok .empty) ∧
          result = resultOf r reply) := by
  obtain ⟨hrequests, hreplies, hreply⟩ := ask_cases s r
  unfold performUnless at h
  -- A cancellation is looked at twice: before the request, and while the reply is waited for.
  split at h
  · rename_i hcame
    cases h
    exact ⟨fun _ => id, Or.inl rfl, Or.inl ⟨rfl, (Bool.and_eq_true_iff.mp hcame).1⟩⟩
  · simp only at h
    split at h
    · rename_i hleft
      cases h
      exact ⟨hreplies, Or.inr ⟨_, hrequests⟩, Or.inl ⟨rfl, (Bool.and_eq_true_iff.mp hleft).1⟩⟩
    · cases h
      exact ⟨hreplies, Or.inr ⟨_, hrequests⟩, Or.inr ⟨_, hreply, rfl⟩⟩

/-- A reply that is a failure is a failure of the service. -/
theorem resultOf_eq_error {reply : Reply} {f : Failure} (h : resultOf r reply = .error f) :
    ∃ code, f = .service r.call code := by
  unfold resultOf at h
  split at h
  · cases h
  · cases h
    exact ⟨_, rfl⟩

/-- A response is a reply to come, or an empty one. -/
theorem resultOf_eq_ok {reply : Reply} {response : Response} (h : resultOf r reply = .ok response) :
    reply.outcome = .ok response := by
  unfold resultOf at h
  split at h
  · rename_i houtcome
    cases h
    exact houtcome
  · cases h

/-- A rest takes time, and nothing else. -/
theorem restUnless_same {duration : Nat} {slept : Bool}
    (h : s.restUnless cancelAt notice duration = (s', slept)) :
    s'.replies = s.replies ∧ s'.requests = s.requests := by
  cases h
  exact ⟨rfl, rfl⟩

/-- A rest that is not slept out has been canceled. -/
theorem canceledBy_of_restUnless {duration : Nat}
    (h : s.restUnless cancelAt notice duration = (s', false)) :
    canceledBy cancelAt s'.now = true := by
  obtain ⟨rfl, hleft⟩ := Prod.mk.inj h
  have hleft := Bool.not_eq_eq_eq_not.mp hleft
  exact (Bool.and_eq_true_iff.mp hleft).1

end

end Session

namespace Client
variable {c : Client} {most : Nat} {cancelAt : Option Nat} {notices : Nat → Notice}
  {s s' : Session} {answer : Except Failure (List Message)}

/-- A receiver asks for a message at least, for no more than it wants, and never for more than
ten. -/
theorem askedFor_bounds (most : Nat) :
    1 ≤ askedFor most ∧ askedFor most ≤ mostAtOnce ∧ askedFor most ≤ Queue.atLeastOne most := by
  unfold askedFor Queue.atLeastOne mostAtOnce
  omega

/-- What a receiver keeps of a response is no more than what is in it. -/
theorem length_received_le (response : Response) :
    (received response).length ≤ response.messages.length :=
  List.length_filterMap_le _ _

/-- A request for messages that may be canceled ends with a response that is not too large, or with
a failure that keeps the promise. -/
theorem receive_kept {notice : Notice} {result : Except Failure Response}
    (within : s.GivesOut (askedFor most))
    (h : s.performUnless cancelAt notice (c.receiveRequest most) = (s', result)) :
    s'.GivesOut (askedFor most) ∧
      (∀ r ∈ s'.requests, r ∈ s.requests ∨ r.2 = c.receiveRequest most) ∧
      match result with
      | .ok response => response.messages.length ≤ askedFor most
      | .error f =>
        KeepsPromise (askedFor most) (canceledBy cancelAt s'.now)
          (.error f : Except Failure (List Message)) := by
  obtain ⟨hreplies, hrequests, hresult⟩ := Session.performUnless_cases h
  refine ⟨fun reply hreply => within reply (hreplies reply hreply), fun r hr => ?_, ?_⟩
  · rcases hrequests with hsame | ⟨now, hone⟩
    · exact Or.inl (hsame ▸ hr)
    · rw [hone] at hr
      exact (List.mem_cons.mp hr).elim (fun he => Or.inr (he ▸ rfl)) Or.inl
  · rcases hresult with ⟨rfl, hcame⟩ | ⟨reply, hreply, hresult⟩
    · exact .of_error (fun _ => hcame) nofun
    · cases result with
      | error f =>
        obtain ⟨code, rfl⟩ := Session.resultOf_eq_error hresult.symm
        exact .of_error nofun nofun
      | ok response =>
        have houtcome := Session.resultOf_eq_ok hresult.symm
        rcases hreply with hmem | hempty
        · exact within reply hmem response houtcome
        · rw [hempty] at houtcome
          cases houtcome
          exact Nat.zero_le _

/-- From any round on, a wait asks for nothing but messages, and keeps the promise. -/
theorem waitBatchFrom_kept {fuel k : Nat} (within : s.GivesOut (askedFor most))
    (h : c.waitBatchFrom most cancelAt notices fuel k s = (s', some answer)) :
    (∀ r ∈ s'.requests, r ∈ s.requests ∨ r.2 = c.receiveRequest most) ∧
      KeepsPromise (askedFor most) (canceledBy cancelAt s'.now) answer := by
  induction fuel generalizing k s with
  | zero => cases h
  | succ fuel ih =>
    unfold waitBatchFrom at h
    generalize hperform : s.performUnless cancelAt (notices (2 * k)) (c.receiveRequest most)
      = performed at h
    obtain ⟨s₁, result⟩ := performed
    obtain ⟨hwithin, hasked, hresult⟩ := receive_kept within hperform
    cases result with
    | error f =>
      cases h
      exact ⟨hasked, hresult⟩
    | ok response =>
      simp only at h
      split at h
      · -- No message with a handle has come: the wait rests, and goes on with the next round.
        generalize hrest : s₁.restUnless cancelAt (notices (2 * k + 1)) c.pollInterval = rested at h
        obtain ⟨s₂, slept⟩ := rested
        obtain ⟨hreplies, hrequests⟩ := Session.restUnless_same hrest
        cases slept with
        | true =>
          obtain ⟨hlater, hkept⟩ := ih (by rwa [Session.GivesOut, hreplies]) h
          refine ⟨fun r hr => ?_, hkept⟩
          rcases hlater r hr with hr | hr
          · exact hasked r (hrequests ▸ hr)
          · exact Or.inr hr
        | false =>
          cases h
          rw [hrequests]
          exact ⟨hasked, .of_error (fun _ => Session.canceledBy_of_restUnless hrest) nofun⟩
      · rename_i hsome
        cases h
        exact ⟨hasked, .of_ok hsome (Nat.le_trans (length_received_le response) hresult)⟩

/-- A wait for a batch asks for nothing but messages, and keeps the promise. -/
theorem keepsPromise {fuel : Nat} (within : s.GivesOut (askedFor most))
    (h : c.waitBatch most cancelAt notices fuel s = (s', some answer)) :
    (∀ r ∈ s'.requests, r ∈ s.requests ∨ r.2 = c.receiveRequest most) ∧
      KeepsPromise (askedFor most) (canceledBy cancelAt s'.now) answer :=
  waitBatchFrom_kept within h

end Client

end Leasework.Polling
