import Mathlib.Data.List.Forall2
import Leasework.Polling.Client
import Leasework.Proofs.Queue.Schedule

/-!
# `Leasework.Proofs.Polling.Rounds`: the rounds of a wait by polling

A wait asks for messages in rounds. The replies that the service has ready decide when each round
asks (`Session.asksAt`) and hears (`Session.hearsAt`), and which round is the last one: the first
whose reply is a failure or brings a message with a handle (`Reply.Decides`). None of this knows of
a cancellation, which only cuts the rounds short.

`Client.round` says what one round of the wait comes to, and `Client.waitBatchFrom_course`, by
induction on the rounds, what the whole wait does. Where it ends is read off its course: with the
reply that decides, or with a cancellation before that. `polls` says so of a queue that was opened
with its settings.
-/

set_option autoImplicit false

namespace Leasework.Polling

open Queue (Failure Notice canceledBy wakesAt leavesCanceled)

/-! ### What a reply decides -/

/-- A message is handed out as the service gave it out. What is missing is empty. -/
structure RawMessage.HandedOutAs (raw : RawMessage) (m : Message) : Prop where
  handle : raw.handle = some m.handle
  id : m.id = raw.id.getD ""
  content : m.content = raw.body.getD ""

namespace Reply

/-- A reply after which a wait goes on: no failure, and no message that has a handle. -/
def Idle (reply : Reply) : Prop :=
  ∃ response, reply.outcome = .ok response ∧ ∀ raw ∈ response.messages, raw.handle = none

/-- The answer that a reply makes of the wait. -/
inductive Decides (reply : Reply) : Except Failure (List Message) → Prop
  /-- A failure is handed on as it is, whatever its code says. -/
  | failed {code : Option String} : reply.outcome = .error code →
    Decides reply (.error (.service .receiveMessage code))
  /-- If some message has a handle, those that have one are handed out in their order. -/
  | brought {response : Response} {batch : List Message} : reply.outcome = .ok response →
    (∃ raw ∈ response.messages, raw.handle ≠ none) →
    List.Forall₂ RawMessage.HandedOutAs (response.messages.filter (·.handle.isSome)) batch →
    Decides reply (.ok batch)

end Reply

/-- The messages that a client keeps are those with a handle, in their order. -/
theorem forall₂_received (response : Response) :
    List.Forall₂ RawMessage.HandedOutAs (response.messages.filter (·.handle.isSome))
      (Client.received response) := by
  obtain ⟨_, messages⟩ := response
  show List.Forall₂ _ _ (messages.filterMap _)
  induction messages with
  | nil => exact .nil
  | cons raw rest ih =>
    cases hhandle : raw.handle with
    | none => simpa [hhandle] using ih
    | some handle => simpa [hhandle] using ⟨⟨hhandle, rfl, rfl⟩, ih⟩

/-- A client keeps nothing of a response exactly if no message has a handle. -/
theorem received_eq_nil_iff {response : Response} :
    Client.received response = [] ↔ ∀ raw ∈ response.messages, raw.handle = none := by
  simp [Client.received, List.filterMap_eq_nil_iff]

namespace Reply
variable {reply : Reply} {answer answer' : Except Failure (List Message)}

/-- An idle reply decides nothing. -/
theorem Decides.not_idle (decides : reply.Decides answer) : ¬ reply.Idle := by
  rintro ⟨response, houtcome, hnone⟩
  cases decides with
  | failed hfailed => simp [houtcome] at hfailed
  | brought hbrought some_handle _ =>
    obtain ⟨raw, hraw, hhandle⟩ := some_handle
    cases houtcome.symm.trans hbrought
    exact hhandle (hnone raw hraw)

/-- A batch is the only one that a message list is handed out as. -/
theorem handedOut_unique {raws : List RawMessage} {batch batch' : List Message}
    (h : List.Forall₂ RawMessage.HandedOutAs raws batch)
    (h' : List.Forall₂ RawMessage.HandedOutAs raws batch') : batch = batch' := by
  induction h generalizing batch' with
  | nil => cases h'; rfl
  | @cons raw m raws batch hm _ ih =>
    cases h' with
    | @cons _ m' _ batch' hm' hrest =>
      obtain ⟨id, content, handle⟩ := m
      obtain ⟨id', content', handle'⟩ := m'
      obtain rfl : handle = handle' := Option.some.inj (hm.handle.symm.trans hm'.handle)
      obtain rfl : id = id' := hm.id.trans hm'.id.symm
      obtain rfl : content = content' := hm.content.trans hm'.content.symm
      rw [ih hrest]

/-- A reply decides one answer. -/
theorem Decides.unique (h : reply.Decides answer) (h' : reply.Decides answer') :
    answer = answer' := by
  cases h with
  | failed houtcome =>
    cases h' with
    | failed houtcome' => cases houtcome.symm.trans houtcome'; rfl
    | brought houtcome' _ _ => cases houtcome.symm.trans houtcome'
  | brought houtcome _ hbatch =>
    cases h' with
    | failed houtcome' => cases houtcome.symm.trans houtcome'
    | brought houtcome' _ hbatch' =>
      cases houtcome.symm.trans houtcome'
      rw [handedOut_unique hbatch hbatch']

end Reply

/-- A response that brings something decides the wait. -/
theorem Reply.decides_of_received {reply : Reply} {response : Response}
    (houtcome : reply.outcome = .ok response) (h : Client.received response ≠ []) :
    reply.Decides (.ok (Client.received response)) := by
  refine .brought houtcome ?_ (forall₂_received response)
  rw [Ne, received_eq_nil_iff] at h
  simpa using h

/-! ### The rounds -/

namespace Session

/-- The reply that a round gets: the next one that is ready, or an empty one at once. -/
def reply (s : Session) (k : Nat) : Reply := s.replies.getD k ⟨0, .ok .empty⟩

/-- When a round asks: the first at once, and every other one a whole pause after the reply to the
one before it. -/
def asksAt (s : Session) (pause : Nat) : Nat → Nat
  | 0 => s.now
  | k + 1 => s.asksAt pause k + (s.reply k).takes + pause

/-- When a round has its reply. -/
def hearsAt (s : Session) (pause k : Nat) : Nat := s.asksAt pause k + (s.reply k).takes

/-- What the first rounds ask, the last one first. -/
def asked (s : Session) (pause : Nat) (r : Request) (n : Nat) : List (Nat × Request) :=
  ((List.range n).map fun k => (s.asksAt pause k, r)).reverse

/-- The session in which the second round begins. -/
def next (s : Session) (pause : Nat) (r : Request) : Session :=
  ⟨s.asksAt pause 1, s.replies.tail, (s.now, r) :: s.requests⟩

section
variable {s : Session} {pause : Nat} {r : Request}

/-- What is asked gets the reply of the first round. -/
theorem ask_eq (s : Session) (r : Request) :
    s.ask r = (⟨s.now, s.replies.tail, (s.now, r) :: s.requests⟩, s.reply 0) := by
  unfold ask reply
  cases hreplies : s.replies with
  | nil => simp
  | cons reply rest => simp

/-- The second round gets the second reply, and so on. -/
@[simp]
theorem reply_next (k : Nat) : (s.next pause r).reply k = s.reply (k + 1) := by
  unfold reply next
  cases s.replies <;> simp

@[simp]
theorem asksAt_next (k : Nat) : (s.next pause r).asksAt pause k = s.asksAt pause (k + 1) := by
  induction k with
  | zero => rfl
  | succ k ih =>
    show (s.next pause r).asksAt pause k + ((s.next pause r).reply k).takes + pause = _
    rw [ih, reply_next]
    rfl

@[simp]
theorem hearsAt_next (k : Nat) : (s.next pause r).hearsAt pause k = s.hearsAt pause (k + 1) := by
  unfold hearsAt
  rw [asksAt_next, reply_next]

/-- What has been asked from the second round on has been asked after the first request. -/
theorem asked_next (n : Nat) :
    (s.next pause r).asked pause r n ++ (s.next pause r).requests
      = s.asked pause r (n + 1) ++ s.requests := by
  show (s.next pause r).asked pause r n ++ (s.now, r) :: s.requests = _
  have first : s.asksAt pause 0 = s.now := rfl
  simp [asked, List.range_succ_eq_map, first, Function.comp_def]

/-- No round asks before the ones before it. -/
theorem asksAt_mono {k l : Nat} (h : k ≤ l) : s.asksAt pause k ≤ s.asksAt pause l := by
  induction h with
  | refl => exact Nat.le_refl _
  | step _ ih =>
    refine Nat.le_trans ih ?_
    simp only [asksAt]
    omega

/-- A round that asks earlier is an earlier one. -/
theorem lt_of_asksAt_lt {k l : Nat} (h : s.asksAt pause k < s.asksAt pause l) : k < l :=
  Nat.lt_of_not_le fun hle => Nat.not_lt_of_le (asksAt_mono hle) h

/-- A round has its reply before the next one asks. -/
theorem hearsAt_le_asksAt {k l : Nat} (h : k < l) : s.hearsAt pause k ≤ s.asksAt pause l := by
  have next : s.asksAt pause (k + 1) ≤ s.asksAt pause l := asksAt_mono h
  simp only [hearsAt, asksAt] at next ⊢
  omega

/-- And it asks before it has its reply. -/
theorem asksAt_le_hearsAt (k : Nat) : s.asksAt pause k ≤ s.hearsAt pause k := Nat.le_add_right _ _

/-- No round has its reply before the ones before it. -/
theorem hearsAt_mono {k l : Nat} (h : k ≤ l) : s.hearsAt pause k ≤ s.hearsAt pause l := by
  cases Nat.eq_or_lt_of_le h with
  | inl heq => simp [heq]
  | inr hlt => exact Nat.le_trans (hearsAt_le_asksAt hlt) (asksAt_le_hearsAt l)

/-! ### One round -/

/-- A cancellation that is there by a moment came just then, or had come before the session, which
then has taken no time. -/
def PassedBy (s : Session) (cancelAt : Option Nat) (moment : Nat) : Prop :=
  ∀ t, cancelAt = some t → t ≤ moment → max t s.now = moment

/-- It makes no difference to the moment of the cancellation from when on it is waited for. -/
theorem PassedBy.max_eq {cancelAt : Option Nat} {moment t : Nat}
    (passed : s.PassedBy cancelAt moment) (hle : s.now ≤ moment) (ht : cancelAt = some t) :
    max t moment = max t s.now := by
  by_cases h : t ≤ moment
  · rw [passed t ht h, Nat.max_eq_right h]
  · omega

/-- What was passed by from the second round on was passed by from the first one on. -/
theorem PassedBy.of_next {cancelAt : Option Nat} {moment : Nat}
    (passed : s.PassedBy cancelAt (s.asksAt pause 1))
    (rest : (s.next pause r).PassedBy cancelAt moment) : s.PassedBy cancelAt moment := by
  intro t ht hle
  rw [← passed.max_eq (asksAt_mono (Nat.zero_le 1)) ht]
  exact rest t ht hle

/-- A request whose wait may be canceled: the cancellation is noticed, perhaps before the request is
made if it was there already, or the next reply is the result. -/
theorem performUnless_spec (s : Session) (pause : Nat) (cancelAt : Option Nat) (notice : Notice)
    (r : Request) :
    (∃ t s', cancelAt = some t ∧ s.performUnless cancelAt notice r = (s', .error .canceled) ∧
      s'.now = max t s.now ∧ t ≤ s.hearsAt pause 0 ∧
      (s'.requests = s.requests ∧ t ≤ s.now ∨ s'.requests = (s.now, r) :: s.requests)) ∨
    s.performUnless cancelAt notice r
        = (⟨s.hearsAt pause 0, s.replies.tail, (s.now, r) :: s.requests⟩, resultOf r (s.reply 0)) ∧
      s.PassedBy cancelAt (s.hearsAt pause 0) := by
  have hle : s.now ≤ s.now + (s.reply 0).takes := Nat.le_add_right _ _
  unfold performUnless
  by_cases early : (canceledBy cancelAt s.now && notice = .cancellation) = true
  · -- It was there before the request.
    obtain ⟨t, rfl, ht⟩ : ∃ t, cancelAt = some t ∧ t ≤ s.now := by
      cases cancelAt <;> simp_all [canceledBy]
    rw [if_pos early]
    exact Or.inl ⟨t, s, rfl, rfl, (Nat.max_eq_right ht).symm, Nat.le_trans ht hle,
      Or.inl ⟨rfl, ht⟩⟩
  · simp only [if_neg early, ask_eq]
    by_cases left : leavesCanceled cancelAt notice s.now (s.now + (s.reply 0).takes) = true
    · obtain ⟨t, ht, hends, hwakes⟩ := Queue.wakesAt_of_leavesCanceled hle left
      rw [if_pos left, hwakes]
      exact Or.inl ⟨t, _, ht, rfl, rfl, hends, Or.inr rfl⟩
    · obtain ⟨hwakes, passed⟩ :=
        Queue.wakesAt_of_not_leavesCanceled hle (Bool.not_eq_true _ ▸ left)
      rw [if_neg left, hwakes]
      exact Or.inr ⟨rfl, passed⟩

end

end Session

namespace Client

variable (c : Client) (most : Nat) (cancelAt : Option Nat) (s : Session)

/-- What one round comes to, if `goOn` is what comes after it. -/
inductive Round (goOn : Session → Session × Option (Except Failure (List Message))) :
    Session × Option (Except Failure (List Message)) → Prop
  /-- The cancellation is noticed, before the reply has come or in the pause after an idle one. If
  it is noticed before the request is made, it was there from the beginning. -/
  | canceled {t : Nat} {s' : Session} : cancelAt = some t → s'.now = max t s.now →
    (t ≤ s.hearsAt c.pollInterval 0 ∨
      (s.reply 0).Idle ∧ t ≤ s.asksAt c.pollInterval 1) →
    (s'.requests = s.requests ∧ t ≤ s.now ∨
      s'.requests = (s.now, c.receiveRequest most) :: s.requests) →
    Round goOn (s', some (.error .canceled))
  /-- The reply decides. -/
  | decided {answer : Except Failure (List Message)} : (s.reply 0).Decides answer →
    s.PassedBy cancelAt (s.hearsAt c.pollInterval 0) →
    Round goOn (⟨s.hearsAt c.pollInterval 0, s.replies.tail,
      (s.now, c.receiveRequest most) :: s.requests⟩, some answer)
  /-- The reply is idle, and the next round begins a pause later. -/
  | idle : (s.reply 0).Idle → s.PassedBy cancelAt (s.asksAt c.pollInterval 1) →
    Round goOn (goOn (s.next c.pollInterval (c.receiveRequest most)))

/-- Each round of a wait comes to one of these. -/
theorem round (notices : Nat → Notice) (fuel k : Nat) :
    Round c most cancelAt s (c.waitBatchFrom most cancelAt notices fuel (k + 1))
      (c.waitBatchFrom most cancelAt notices (fuel + 1) k s) := by
  unfold waitBatchFrom
  obtain ⟨t, s', ht, made, now, hends, hrequests⟩ | ⟨made, passed⟩ :=
    s.performUnless_spec c.pollInterval cancelAt (notices (2 * k)) (c.receiveRequest most)
  · simp only [made]
    exact .canceled ht now (Or.inl hends) hrequests
  simp only [made, Session.resultOf]
  cases houtcome : (s.reply 0).outcome with
  | error code => exact .decided (.failed houtcome) passed
  | ok response =>
    simp only
    cases hreceived : received response with
    | cons m batch =>
      have decides := Reply.decides_of_received houtcome (by simp [hreceived])
      rw [hreceived] at decides
      exact .decided decides passed
    | nil =>
      -- The round rests. A cancellation in the rest was not there when the reply came, or came
      -- just then, so it is still noticed at the moment at which it came.
      have idle : (s.reply 0).Idle := ⟨response, houtcome, received_eq_nil_iff.mp hreceived⟩
      have begun : s.now ≤ s.hearsAt c.pollInterval 0 := s.asksAt_le_hearsAt 0
      have hle : s.hearsAt c.pollInterval 0 ≤ s.hearsAt c.pollInterval 0 + c.pollInterval :=
        Nat.le_add_right _ _
      simp only [Session.restUnless]
      by_cases left : leavesCanceled cancelAt (notices (2 * k + 1)) (s.hearsAt c.pollInterval 0)
          (s.hearsAt c.pollInterval 0 + c.pollInterval) = true
      · obtain ⟨t, ht, hends, hwakes⟩ := Queue.wakesAt_of_leavesCanceled hle left
        simp only [left, hwakes, Bool.not_true, Bool.false_eq_true, if_false]
        exact .canceled ht (passed.max_eq begun ht) (Or.inr ⟨idle, hends⟩) (Or.inr rfl)
      · obtain ⟨hwakes, rested⟩ :=
          Queue.wakesAt_of_not_leavesCanceled hle (Bool.not_eq_true _ ▸ left)
        simp only [left, hwakes, Bool.not_false, if_true]
        exact .idle idle fun t ht hends => by rw [← passed.max_eq begun ht, rested t ht hends]; rfl

/-! ### The whole wait -/

/-- How a wait ends that begins `fuel` rounds of which the first ones have idle replies. -/
inductive Course (fuel : Nat) : Session × Option (Except Failure (List Message)) → Prop
  /-- The cancellation is noticed in round `n`, or before that round makes its request. -/
  | canceled {n m t : Nat} {s' : Session} : n < fuel → (∀ i < n, (s.reply i).Idle) →
    s.PassedBy cancelAt (s.asksAt c.pollInterval n) → cancelAt = some t → s'.now = max t s.now →
    (t ≤ s.hearsAt c.pollInterval n ∨
      (s.reply n).Idle ∧ t ≤ s.asksAt c.pollInterval (n + 1)) →
    s'.requests = s.asked c.pollInterval (c.receiveRequest most) m ++ s.requests →
    (m = n ∧ t ≤ s.asksAt c.pollInterval n ∨ m = n + 1) →
    Course fuel (s', some (.error .canceled))
  /-- The reply of round `n` decides. -/
  | decided {n : Nat} {answer : Except Failure (List Message)} : n < fuel →
    (∀ i < n, (s.reply i).Idle) → (s.reply n).Decides answer →
    s.PassedBy cancelAt (s.hearsAt c.pollInterval n) →
    Course fuel (⟨s.hearsAt c.pollInterval n, s.replies.drop (n + 1),
      s.asked c.pollInterval (c.receiveRequest most) (n + 1) ++ s.requests⟩, some answer)
  /-- No round decides. -/
  | unfinished : (∀ i < fuel, (s.reply i).Idle) →
    s.PassedBy cancelAt (s.asksAt c.pollInterval fuel) →
    Course fuel (⟨s.asksAt c.pollInterval fuel, s.replies.drop fuel,
      s.asked c.pollInterval (c.receiveRequest most) fuel ++ s.requests⟩, none)

section
variable {c most cancelAt s} {notices : Nat → Notice} {answer : Except Failure (List Message)}
  {out : Session × Option (Except Failure (List Message))} {n fuel t : Nat}

/-- An idle round puts itself before the rounds after it. -/
theorem Course.of_next (first : (s.reply 0).Idle)
    (passed : s.PassedBy cancelAt (s.asksAt c.pollInterval 1))
    (rest : Course c most cancelAt (s.next c.pollInterval (c.receiveRequest most)) fuel out) :
    Course c most cancelAt s (fuel + 1) out := by
  -- Round `n` of the rest is round `n + 1` of the whole, and its moments are the same.
  have idle {n : Nat}
      (h : ∀ i < n, ((s.next c.pollInterval (c.receiveRequest most)).reply i).Idle) :
      ∀ i < n + 1, (s.reply i).Idle := by
    rintro (_ | i) hi
    · exact first
    · simpa using h i (Nat.lt_of_succ_lt_succ hi)
  cases rest with
  | @canceled n m t s' hn earlier hasks ht now hends hrequests hm =>
    rw [Session.asked_next] at hrequests
    simp only [Session.asksAt_next, Session.hearsAt_next, Session.reply_next] at hasks hends hm
    have woken : max t (s.asksAt c.pollInterval 1) = max t s.now :=
      passed.max_eq (s.asksAt_mono (Nat.zero_le 1)) ht
    have hn : n + 1 < fuel + 1 := Nat.succ_lt_succ hn
    exact .canceled hn (idle earlier) (passed.of_next hasks) ht (now.trans woken) hends hrequests
      (by omega)
  | @decided n answer hn earlier decides hhears =>
    rw [Session.asked_next, Session.hearsAt_next]
    simp only [Session.hearsAt_next, Session.reply_next] at decides hhears
    have left : (s.next c.pollInterval (c.receiveRequest most)).replies.drop (n + 1)
        = s.replies.drop (n + 1 + 1) := by
      simp [Session.next]
    rw [left]
    have hn : n + 1 < fuel + 1 := Nat.succ_lt_succ hn
    exact .decided hn (idle earlier) decides (passed.of_next hhears)
  | unfinished earlier hasks =>
    rw [Session.asked_next, Session.asksAt_next]
    simp only [Session.asksAt_next] at hasks
    have left : (s.next c.pollInterval (c.receiveRequest most)).replies.drop fuel
        = s.replies.drop (fuel + 1) := by
      simp [Session.next]
    rw [left]
    exact .unfinished (idle earlier) (passed.of_next hasks)

/-- The course of a wait, by induction on the rounds that it may begin. -/
theorem waitBatchFrom_course (c : Client) (most : Nat) (cancelAt : Option Nat)
    (notices : Nat → Notice) (fuel k : Nat) (s : Session) :
    Course c most cancelAt s fuel (c.waitBatchFrom most cancelAt notices fuel k s) := by
  -- Each round begins in a session of its own, in which what is to come is one round nearer.
  induction fuel generalizing k s with
  | zero =>
    refine .unfinished (fun i hi => absurd hi (Nat.not_lt_zero i)) fun t _ ht => ?_
    exact Nat.max_eq_right ht
  | succ fuel ih =>
    generalize hout : c.waitBatchFrom most cancelAt notices (fuel + 1) k s = out
    have round := hout ▸ c.round most cancelAt s notices fuel k
    have none_before : ∀ i < 0, (s.reply i).Idle := fun i hi => absurd hi (Nat.not_lt_zero i)
    cases round with
    | canceled ht now hends hrequests =>
      have passed : s.PassedBy cancelAt (s.asksAt c.pollInterval 0) :=
        fun _ _ hle => Nat.max_eq_right hle
      obtain ⟨hrequests, there⟩ | hrequests := hrequests
      · exact .canceled (m := 0) (Nat.succ_pos fuel) none_before passed ht now hends hrequests
          (Or.inl ⟨rfl, there⟩)
      · exact .canceled (m := 1) (Nat.succ_pos fuel) none_before passed ht now hends hrequests
          (Or.inr rfl)
    | decided decides passed =>
      rw [← List.drop_one]
      exact .decided (Nat.succ_pos fuel) none_before decides passed
    | idle first passed => exact .of_next first passed (ih (k + 1) _)

/-- A wait asks only what its rounds ask. -/
theorem Course.requests_eq (course : Course c most cancelAt s fuel out) :
    ∃ m, out.1.requests = s.asked c.pollInterval (c.receiveRequest most) m ++ s.requests := by
  cases course with
  | canceled _ _ _ _ _ _ hrequests _ => exact ⟨_, hrequests⟩
  | decided _ _ _ _ => exact ⟨_, rfl⟩
  | unfinished _ _ => exact ⟨_, rfl⟩

/-- Idle replies come before one that decides. -/
theorem le_of_decides {m : Nat} (earlier : ∀ i < m, (s.reply i).Idle)
    (decides : (s.reply n).Decides answer) : m ≤ n := by
  by_contra h
  exact decides.not_idle (earlier n (by omega))

/-- A cancellation that is noticed in a round after idle replies comes no later than a reply that
decides. -/
theorem le_hearsAt_of_decides {m : Nat} (earlier : ∀ i < m, (s.reply i).Idle)
    (hends : t ≤ s.hearsAt c.pollInterval m ∨
      (s.reply m).Idle ∧ t ≤ s.asksAt c.pollInterval (m + 1))
    (decides : (s.reply n).Decides answer) : t ≤ s.hearsAt c.pollInterval n := by
  have hle : m ≤ n := le_of_decides earlier decides
  obtain hends | ⟨idle, hends⟩ := hends
  · exact Nat.le_trans hends (Session.hearsAt_mono hle)
  · -- The reply before the pause is idle as well, so the one that decides is a later one.
    have hne : m ≠ n := by
      rintro rfl
      exact decides.not_idle idle
    have hasks : s.asksAt c.pollInterval (m + 1) ≤ s.asksAt c.pollInterval n :=
      Session.asksAt_mono (by omega)
    exact Nat.le_trans hends (Nat.le_trans hasks (s.asksAt_le_hearsAt n))

/-- Without a cancellation before it, a wait ends with the first reply that decides. -/
theorem Course.eq_decided (course : Course c most cancelAt s fuel out)
    (earlier : ∀ i < n, (s.reply i).Idle) (decides : (s.reply n).Decides answer)
    (later : ∀ t, cancelAt = some t → s.hearsAt c.pollInterval n < t) (hfuel : n < fuel) :
    out = (⟨s.hearsAt c.pollInterval n, s.replies.drop (n + 1),
      s.asked c.pollInterval (c.receiveRequest most) (n + 1) ++ s.requests⟩, some answer) := by
  cases course with
  | canceled _ earlier' _ ht _ hends _ _ =>
    exact absurd (le_hearsAt_of_decides earlier' hends decides) (Nat.not_le_of_lt (later _ ht))
  | decided _ earlier' decides' _ =>
    obtain rfl := Nat.le_antisymm (le_of_decides earlier' decides) (le_of_decides earlier decides')
    rw [decides'.unique decides]
  | unfinished earlier' _ => exact absurd (earlier' n hfuel) decides.not_idle

/-- A cancellation that comes before the reply of a round, after idle replies, ends the wait just
then, or at once if it was there before. -/
theorem Course.canceled_before (course : Course c most cancelAt s fuel out)
    (earlier : ∀ i < n, (s.reply i).Idle) (ht : cancelAt = some t)
    (before : max t s.now < s.hearsAt c.pollInterval n) (hfuel : n < fuel) :
    ∃ s' m, out = (s', some (.error .canceled)) ∧ s'.now = max t s.now ∧
      s'.requests = s.asked c.pollInterval (c.receiveRequest most) m ++ s.requests ∧
      ∀ i, (s.asksAt c.pollInterval i < t → i < m) ∧
        (i < m → s.asksAt c.pollInterval i ≤ max t s.now) := by
  -- No later moment than that reply can be passed by, so neither can an answer come from there.
  have not_passed {moment : Nat} (hle : s.hearsAt c.pollInterval n ≤ moment) :
      ¬ s.PassedBy cancelAt moment := by
    intro passed
    have := passed t ht (by omega)
    omega
  cases course with
  | @canceled n' m _ s' _ _ passed ht' now hends hrequests hm =>
    obtain rfl : t = _ := Option.some.inj (ht.symm.trans ht')
    refine ⟨s', m, rfl, now, hrequests, fun i => ⟨fun hi => ?_, fun hi => ?_⟩⟩
    · -- Round `n'` is the last one that may have asked, and the next one is too late for `t`.
      have bound : t ≤ s.asksAt c.pollInterval (n' + 1) := by
        obtain hends | ⟨_, hends⟩ := hends
        · exact Nat.le_trans hends (Session.hearsAt_le_asksAt (Nat.lt_succ_self n'))
        · exact hends
      obtain ⟨rfl, there⟩ | rfl := hm
      · exact Session.lt_of_asksAt_lt (Nat.lt_of_lt_of_le hi there)
      · exact Session.lt_of_asksAt_lt (Nat.lt_of_lt_of_le hi bound)
    · have hle : i ≤ n' := by omega
      have : s.asksAt c.pollInterval i ≤ s.asksAt c.pollInterval n' := Session.asksAt_mono hle
      by_cases h : t ≤ s.asksAt c.pollInterval n'
      · rw [passed t ht h]
        exact this
      · omega
  | decided _ _ decides passed =>
    exact absurd passed (not_passed (Session.hearsAt_mono (le_of_decides earlier decides)))
  | unfinished _ passed => exact absurd passed (not_passed (Session.hearsAt_le_asksAt hfuel))

/-- An answer is that of the first reply that decides, given when it came, or the cancellation,
noticed when it came, at the latest with a reply that decides. -/
theorem Course.answer_spec (course : Course c most cancelAt s fuel out)
    (h : out.2 = some answer) :
    (∃ n, (∀ i < n, (s.reply i).Idle) ∧ (s.reply n).Decides answer ∧
      out.1.now = s.hearsAt c.pollInterval n) ∨
    ∃ t, cancelAt = some t ∧ answer = .error .canceled ∧ out.1.now = max t s.now ∧
      ∀ n answer', (s.reply n).Decides answer' → t ≤ s.hearsAt c.pollInterval n := by
  cases course with
  | canceled _ earlier _ ht now hends _ _ =>
    cases h
    exact Or.inr ⟨_, ht, rfl, now, fun n _ decides => le_hearsAt_of_decides earlier hends decides⟩
  | decided _ earlier decides _ =>
    cases h
    exact Or.inl ⟨_, earlier, decides, rfl⟩
  | unfinished _ _ => cases h

/-- A client is opened with the settings as they are, if the service can be told their lease. -/
theorem eq_at_of_open {s₀ s₁ : Session} {settings : Queue.Settings}
    (opened : Client.open s₀ settings = (s₁, .ok c)) :
    settings.leaseSeconds.toNat ≤ mostSeconds ∧ ∃ url, c = Client.at settings url := by
  unfold Client.open at opened
  split at opened
  · cases opened
  · rename_i fits
    rcases haddress : addressOf s₀ settings with ⟨s', f | url⟩
    · rw [haddress] at opened
      cases opened
    · rw [haddress] at opened
      cases opened
      exact ⟨Nat.le_of_not_lt fits, url, rfl⟩

end

/-- What a wait by polling comes to, of which `run` gives the state after so many rounds at most:
each round asks `r`, and there is a whole pause between an idle reply and the next round. -/
structure Polls (s : Session) (cancelAt : Option Nat) (pause : Nat) (r : Request)
    (run : Nat → Session × Option (Except Failure (List Message))) : Prop where
  /-- What has been asked is what the first rounds ask, each in its time. -/
  asked (fuel : Nat) : ∃ m, (run fuel).1.requests = s.asked pause r m ++ s.requests
  /-- Without a cancellation before it, the first reply that decides ends the wait as it comes. -/
  decided (n fuel : Nat) {answer : Except Failure (List Message)} :
    (∀ i < n, (s.reply i).Idle) → (s.reply n).Decides answer →
    (∀ t, cancelAt = some t → s.hearsAt pause n < t) → n < fuel →
    run fuel = (⟨s.hearsAt pause n, s.replies.drop (n + 1),
      s.asked pause r (n + 1) ++ s.requests⟩, some answer)
  /-- A cancellation before the reply that comes after idle ones ends the wait as it comes, or at
  once if it was there and the reply is not. The rounds whose time had come have asked. -/
  canceled (n fuel : Nat) {t : Nat} : (∀ i < n, (s.reply i).Idle) → cancelAt = some t →
    max t s.now < s.hearsAt pause n → n < fuel →
    ∃ s' m, run fuel = (s', some (.error .canceled)) ∧ s'.now = max t s.now ∧
      s'.requests = s.asked pause r m ++ s.requests ∧
      ∀ i, (s.asksAt pause i < t → i < m) ∧ (i < m → s.asksAt pause i ≤ max t s.now)
  /-- There is no other answer, also when the cancellation and a reply come together. -/
  answered {fuel : Nat} {answer : Except Failure (List Message)} : (run fuel).2 = some answer →
    (∃ n, (∀ i < n, (s.reply i).Idle) ∧ (s.reply n).Decides answer ∧
      (run fuel).1.now = s.hearsAt pause n) ∨
    ∃ t, cancelAt = some t ∧ answer = .error .canceled ∧ (run fuel).1.now = max t s.now ∧
      ∀ n answer', (s.reply n).Decides answer' → t ≤ s.hearsAt pause n

/-- A wait for a batch at a queue that has been opened: each of its rounds asks for as many messages
as are wanted, which is one at least and no more than ten, and has them hidden for the lease of the
settings, which the service can be told. Between the rounds it rests as long as the settings say. -/
theorem polls {s₀ s₁ : Session} {settings : Queue.Settings} {c : Client}
    (opened : Client.open s₀ settings = (s₁, .ok c)) (most : Nat) (cancelAt : Option Nat)
    (notices : Nat → Notice) (s : Session) :
    settings.leaseSeconds.toNat ≤ 2147483647 ∧
      Polls s cancelAt settings.pollInterval.toNanos
        (.receive c.url (min (max 1 most) 10) settings.leaseSeconds.toNat)
        (fun fuel => c.waitBatch most cancelAt notices fuel s) := by
  obtain ⟨fits, url, rfl⟩ := eq_at_of_open opened
  have course (fuel : Nat) :=
    waitBatchFrom_course (Client.at settings url) most cancelAt notices fuel 0 s
  exact ⟨fits, {
    asked := fun fuel => (course fuel).requests_eq
    decided := fun _ fuel _ earlier decides later hfuel =>
      (course fuel).eq_decided earlier decides later hfuel
    canceled := fun _ fuel _ earlier ht before hfuel =>
      (course fuel).canceled_before earlier ht before hfuel
    answered := fun h => (course _).answer_spec h }⟩

/-- A queue that is polled every 200 milliseconds. -/
def jobs : Queue.Settings :=
  ⟨.polling, "https://jobs", "eu", 30, some 200, none, none, none, none⟩

/-- A service that gives out a message without a handle and then asks to slow down. -/
def throttled : Session :=
  .start [⟨40000000, .ok ⟨none, [⟨some "a", none, some "x"⟩]⟩⟩,
    ⟨10000000, .error (some "ThrottlingException")⟩]

/-- The request for up to 25 messages of `jobs`. -/
def jobsRequest : Request := .receive "https://jobs" 10 30

theorem open_jobs :
    Client.open (.start []) jobs = (.start [], .ok (Client.at jobs "https://jobs")) := by
  have isAddress_jobs : isAddress jobs.name = true := by decide +kernel
  have fits : ¬ mostSeconds < jobs.leaseSeconds.toNat := by decide
  unfold Client.open addressOf
  rw [if_neg fits, if_pos isAddress_jobs]
  rfl

theorem pollInterval_jobs : jobs.pollInterval.toNanos = 200000000 := rfl

theorem asksAt_throttled : throttled.asksAt 200000000 1 = 240000000 := by
  simp [throttled, Session.asksAt, Session.reply, Session.start]

theorem hearsAt_throttled : throttled.hearsAt 200000000 1 = 250000000 := by
  rw [Session.hearsAt, asksAt_throttled]
  simp [throttled, Session.reply, Session.start]

theorem idle_throttled : ∀ i < 1, (throttled.reply i).Idle := by
  intro i hi
  obtain rfl := Nat.lt_one_iff.mp hi
  exact ⟨⟨none, [⟨some "a", none, some "x"⟩]⟩, rfl, by simp⟩

theorem decides_throttled : (throttled.reply 1).Decides
    (.error (.service .receiveMessage (some "ThrottlingException"))) := .failed rfl

/-- The message without a handle is followed by a pause of 200 milliseconds and by a second request.
The failure that answers it is handed on although it asks to slow down, unless the cancellation
comes in the pause. -/
theorem polls_throttled :
    Client.open (.start []) jobs = (.start [], .ok (Client.at jobs "https://jobs")) ∧
      (Client.at jobs "https://jobs").waitBatch 25 (some 250000001) (fun _ => .ending) 2 throttled
        = (⟨250000000, [], [(240000000, jobsRequest), (0, jobsRequest)]⟩,
            some (.error (.service .receiveMessage (some "ThrottlingException")))) ∧
      ∃ s', (Client.at jobs "https://jobs").waitBatch 25 (some 100000000) (fun _ => .ending) 2
            throttled = (s', some (.error .canceled)) ∧
          s'.now = 100000000 ∧ s'.requests = [(0, jobsRequest)] := by
  have first : throttled.asksAt 200000000 0 = 0 := rfl
  refine ⟨open_jobs, ?_, ?_⟩
  · have decided := (polls open_jobs 25 (some 250000001) (fun _ => .ending) throttled).2.decided
      1 2 idle_throttled decides_throttled
    rw [pollInterval_jobs, hearsAt_throttled] at decided
    rw [decided (by rintro t ⟨⟩; decide) (by decide)]
    have asked (r : Request) : throttled.asked 200000000 r 2 = [(240000000, r), (0, r)] := by
      simp [Session.asked, List.range_succ, asksAt_throttled, first]
    rw [asked]
    rfl
  · have canceled := (polls open_jobs 25 (some 100000000) (fun _ => .ending) throttled).2.canceled
      1 2 idle_throttled rfl
    rw [pollInterval_jobs, hearsAt_throttled] at canceled
    obtain ⟨s', m, out, now, requests, inTime⟩ := canceled (by decide) (by decide)
    refine ⟨s', out, now, ?_⟩
    -- The first round was in time, and the second one was not.
    have hm : m = 1 := by
      have early := (inTime 0).1
      have late := (inTime 1).2
      rw [first] at early
      rw [asksAt_throttled, show max 100000000 throttled.now = 100000000 from rfl] at late
      omega
    rw [requests, hm]
    rfl

end Client

end Leasework.Polling
