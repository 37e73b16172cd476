import Leasework.Proofs.Crew.Sole
import Leasework.Proofs.Work.Delivery

/-!
# `Leasework.Proofs.Crew.Sequence`: a crew with one slot answers in order

A crew with one slot has two stores to itself. Handlers refuse requests, are canceled and fail as
often as they like, responses are not accepted, the slot pauses and goes on, and shutdown may come
at any time. `Run.inSequence` says that all the same the responses are in order, as long as every
request that is to be deleted or given back really is: one response for each of the first requests,
and none is skipped, overtaken or answered twice.

The stores and the crew fit together as follows (`Sequenced`). The requests that were accepted are
those that have been deleted, and behind them the line of the store. Whatever is in hand stands in
front of the line. And the responses belong to the requests that have been deleted, and to the one
in hand once its response is accepted.
-/

set_option autoImplicit false

namespace Leasework

open Queue (Call Delivery Store)
open Work (Command Consumer ConsumerMove Iteration Job Post)

/-! ### What is on record, in order -/

namespace Occurrence

/-- The message that the store at a position accepts with an event. -/
def accepted? (i : Nat) (o : Occurrence) : Option (String × String) :=
  o.before.plant.gained? i o.after.plant

/-- The request from the store at a position that is deleted with an event. -/
def gone? (q : Nat) (o : Occurrence) : Option (String × String) :=
  o.deleted?.bind fun x => if x.handle.store = q then some x.delivery.ticket else none

/-- The iteration whose request should have been deleted or given back with an event, and was
not. -/
def unended? (o : Occurrence) : Option Iteration :=
  match o.settled? with
  | some (x, .delete, .error _) => some x
  | some (x, .giveBack, .error _) => some x
  | _ => none

end Occurrence

/-- What events come to, the oldest first. -/
def inOrder {α : Type} (f : Occurrence → Option α) (past : List Occurrence) : List α :=
  (past.filterMap f).reverse

section
variable {α : Type} {f : Occurrence → Option α} {o : Occurrence} (past : List Occurrence)

theorem inOrder_cons_none (h : f o = none) : inOrder f (o :: past) = inOrder f past := by
  rw [inOrder, List.filterMap_cons_none h, inOrder]

theorem inOrder_cons_some {a : α} (h : f o = some a) :
    inOrder f (o :: past) = inOrder f past ++ [a] := by
  rw [inOrder, List.filterMap_cons_some h, List.reverse_cons, inOrder]

end

/-- The messages that a store has accepted, in order. -/
def acceptedBy (i : Nat) (past : List Occurrence) : List (String × String) :=
  inOrder (Occurrence.accepted? i) past

/-- The requests that have been deleted from a store, in order. -/
def goneFrom (q : Nat) (past : List Occurrence) : List (String × String) :=
  inOrder (Occurrence.gone? q) past

/-- A handler has returned a response for a request. -/
def Resulted (q : Nat) (past : List Occurrence) (request : String × String) (text : String) :
    Prop :=
  ∃ o ∈ past, ∃ d, d.ticket = request ∧ o.Answers q d text

theorem Resulted.cons {q : Nat} {past : List Occurrence} {request : String × String}
    {text : String} (h : Resulted q past request text) (o : Occurrence) :
    Resulted q (o :: past) request text := by
  obtain ⟨o₁, ho₁, h⟩ := h
  exact ⟨o₁, List.mem_cons_of_mem _ ho₁, h⟩

/-! ### The stores and what is in hand -/

/-- The request in hand, once its response has been accepted. -/
def answeredIn : Option (Iteration × Bool) → List (String × String)
  | some (x, true) => [x.delivery.ticket]
  | _ => []

/-- How the record, the store of the requests and what is in hand fit together:

- `requests`: what was accepted has been deleted, or is in line;
- `responses`: what has been deleted was answered in order, and so is what is in hand once its
  response is accepted;
- `single`, `idle`: at most one request is held, and none when nothing is in hand;
- `front`: what is in hand is from the store, and in front of the line. -/
structure Sequenced (q r : Nat) (past : List Occurrence) (s : Store)
    (hand : Option (Iteration × Bool)) : Prop where
  requests : acceptedBy q past = goneFrom q past ++ s.line
  responses : List.Forall₂ (Resulted q past) (goneFrom q past ++ answeredIn hand)
    ((acceptedBy r past).map Prod.snd)
  single : s.held.length ≤ 1
  idle : hand = none → s.held = []
  front : ∀ x ∈ hand, x.1.handle.store = q ∧ s.line.head? = some x.1.delivery.ticket

namespace Sequenced
variable {q r : Nat} {past : List Occurrence} {s s' : Store} {hand : Option (Iteration × Bool)}
  {o : Occurrence} {x : Iteration}

theorem responses_cons (S : Sequenced q r past s hand) (o : Occurrence) :
    List.Forall₂ (Resulted q (o :: past)) (goneFrom q past ++ answeredIn hand)
      ((acceptedBy r past).map Prod.snd) :=
  S.responses.imp fun _ _ h => h.cons o

/-- Nothing is deleted and no response is accepted, and the line is kept but for what is sent. -/
theorem still {p p' : Plant} (S : Sequenced q r past s hand) (hs : p.stores[q]? = some s)
    (quiet : p.Quiet q r p') (haccepted : ∀ i, o.accepted? i = p.gained? i p')
    (hgone : o.gone? q = none) :
    ∃ s', p'.stores[q]? = some s' ∧ Sequenced q r (o :: past) s' hand := by
  obtain ⟨s', hs', kept⟩ := quiet.kept s hs S.single
  have hq : o.accepted? q = s.gained? s' := (haccepted q).trans (Plant.gained?_of_stores hs hs')
  have hr : o.accepted? r = none := (haccepted r).trans quiet.ungained
  refine ⟨s', hs', ?_, ?_, Nat.le_trans kept.held S.single, fun hnone => ?_, fun x hx => ?_⟩
  · -- A request that comes in goes to the end, on record and in line.
    rw [goneFrom, inOrder_cons_none past hgone, kept.line, ← List.append_assoc]
    have hbefore := S.requests
    cases hgained : s.gained? s' with
    | none =>
      rw [acceptedBy, inOrder_cons_none past (hq.trans hgained), Option.toList_none,
        List.append_nil]
      exact hbefore
    | some ticket =>
      rw [acceptedBy, inOrder_cons_some past (hq.trans hgained), Option.toList_some]
      exact congrArg (· ++ [ticket]) hbefore
  · rw [goneFrom, inOrder_cons_none past hgone, acceptedBy, inOrder_cons_none past hr]
    exact S.responses_cons o
  · have hheld := kept.held
    rw [S.idle hnone] at hheld
    exact List.eq_nil_of_length_eq_zero (Nat.le_zero.mp hheld)
  · obtain ⟨hstore, hhead⟩ := S.front x hx
    refine ⟨hstore, ?_⟩
    rw [kept.line, List.head?_append, hhead]
    rfl

/-- What comes into hand, or goes back, leaves the record as it is. -/
theorem of_line {hand' : Option (Iteration × Bool)} (S : Sequenced q r past s hand)
    (hline : s'.line = s.line) (hanswered : answeredIn hand' = answeredIn hand)
    (hq : o.accepted? q = none) (hr : o.accepted? r = none) (hgone : o.gone? q = none)
    (single : s'.held.length ≤ 1) (idle : hand' = none → s'.held = [])
    (front : ∀ x ∈ hand', x.1.handle.store = q ∧ s'.line.head? = some x.1.delivery.ticket) :
    Sequenced q r (o :: past) s' hand' where
  requests := by
    rw [acceptedBy, goneFrom, inOrder_cons_none past hq, inOrder_cons_none past hgone, hline]
    exact S.requests
  responses := by
    rw [acceptedBy, goneFrom, inOrder_cons_none past hr, inOrder_cons_none past hgone, hanswered]
    exact S.responses_cons o
  single := single
  idle := idle
  front := front

/-- The response for what is in hand is accepted. -/
theorem sent (S : Sequenced q r past s (some (x, false))) {id text : String}
    (resulted : Resulted q past x.delivery.ticket text) (hq : o.accepted? q = none)
    (hr : o.accepted? r = some (id, text)) (hgone : o.gone? q = none) :
    Sequenced q r (o :: past) s (some (x, true)) where
  requests := by
    rw [acceptedBy, goneFrom, inOrder_cons_none past hq, inOrder_cons_none past hgone]
    exact S.requests
  responses := by
    have hbefore := S.responses_cons o
    rw [show answeredIn (some (x, false)) = [] from rfl, List.append_nil] at hbefore
    rw [acceptedBy, goneFrom, inOrder_cons_some past hr, inOrder_cons_none past hgone,
      List.map_append]
    exact List.rel_append hbefore (.cons (resulted.cons o) .nil)
  single := S.single
  idle := nofun
  front y hy := by
    cases hy
    exact S.front (x, false) rfl

/-- What is in hand is deleted. -/
theorem deleted (S : Sequenced q r past s (some (x, true))) (hline : s'.line = s.line.tail)
    (hheld : s'.held = []) (hq : o.accepted? q = none) (hr : o.accepted? r = none)
    (hgone : o.gone? q = some x.delivery.ticket) : Sequenced q r (o :: past) s' none where
  requests := by
    have hfront := (S.front _ rfl).2
    rw [acceptedBy, goneFrom, inOrder_cons_none past hq, inOrder_cons_some past hgone, hline,
      List.append_assoc, List.singleton_append]
    exact S.requests.trans (congrArg _ (List.eq_cons_of_mem_head? hfront))
  responses := by
    rw [acceptedBy, goneFrom, inOrder_cons_none past hr, inOrder_cons_some past hgone]
    exact (List.append_nil _).symm ▸ S.responses_cons o
  single := by
    rw [hheld]
    exact Nat.zero_le _
  idle _ := hheld
  front := nofun

end Sequenced

/-! ### One step of the consumer -/

/-- A call that succeeds with a step has done something to its store, and to no other. -/
theorem Plant.stepCall_done {p p' : Plant} {canceled : Bool} {call : Call}
    {move : Queue.CallMove} {reply : Queue.Reply}
    (made : p.stepCall canceled call move = some (p', .ended (.ok reply))) {s : Store}
    (hs : p.stores[call.handle.store]? = some s) :
    ∃ s', p'.stores[call.handle.store]? = some s' ∧
      Store.Step p.now s (.attempt call.request) s' (some (.answered (.ok reply))) ∧
      ∀ i, call.handle.store ≠ i → p'.stores[i]? = p.stores[i]? := by
  obtain ⟨s₁, s', hs₁, rfl, st⟩ := stepCall_succeeded made
  obtain rfl : s₁ = s := Option.some.inj (hs₁.symm.trans hs)
  exact ⟨s', stores_withStore hs s', st, fun i hi => List.getElem?_set_ne hi⟩

namespace Sequenced
variable {q r : Nat} {past : List Occurrence} {s : Store} {o : Occurrence} {p p₁ p' : Plant}
  {canceled : Bool} {call : Call} {move : Queue.CallMove} {reply : Queue.Reply} {x : Iteration}

/-- A call on the store of the requests that succeeds, and sends nothing, brings no message to
that store or to the other one. -/
theorem unaccepted (haccepted : ∀ i, o.accepted? i = p.gained? i p') (hqr : q ≠ r)
    (hs : p.stores[q]? = some s)
    (made : p.stepCall canceled call move = some (p₁, .ended (.ok reply)))
    (hstores : p'.stores = p₁.stores) (hstore : call.handle.store = q)
    (unsent : call.request.meter? ≠ some .sent) :
    ∃ s', p'.stores[q]? = some s' ∧
      Store.Step p.now s (.attempt call.request) s' (some (.answered (.ok reply))) ∧
      o.accepted? q = none ∧ o.accepted? r = none := by
  subst hstore
  obtain ⟨s', hs', st, hothers⟩ := Plant.stepCall_done made hs
  rw [← hstores] at hs' hothers
  refine ⟨s', hs', st, ?_, ?_⟩
  · rw [haccepted, Plant.gained?_of_stores hs hs']
    refine st.gained?_eq_none fun text _ hsend => absurd ?_ unsent
    rw [Queue.Deed.attempt.inj hsend]
    rfl
  · rw [haccepted]
    exact Plant.gained?_self r (hothers r hqr)

/-- Nothing is in hand, and the consumer takes what is in front. -/
theorem call_took {ds : List Delivery} {d : Delivery} (S : Sequenced q r past s none)
    (haccepted : ∀ i, o.accepted? i = p.gained? i p') (hqr : q ≠ r)
    (hs : p.stores[q]? = some s)
    (made : p.stepCall canceled call move = some (p₁, .ended (.ok (.batch ds))))
    (hstores : p'.stores = p₁.stores) (hstore : call.handle.store = q)
    (hrequest : call.request = .take 1) (hgone : o.gone? q = none) (hd : d ∈ ds)
    (hx : x.handle.store = q ∧ x.delivery = d) :
    ∃ s', p'.stores[q]? = some s' ∧ Sequenced q r (o :: past) s' (some (x, false)) := by
  obtain ⟨s', hs', st, hq', hr'⟩ := unaccepted haccepted hqr hs made hstores hstore
    (by rw [hrequest]; exact nofun)
  rw [hrequest] at st
  obtain ⟨d', rfl, hline, hhead, hheld⟩ := st.line_taken (S.idle rfl)
  obtain rfl := List.mem_singleton.mp hd
  refine ⟨s', hs', S.of_line hline rfl hq' hr' hgone (Nat.le_of_eq hheld) nofun ?_⟩
  rintro _ ⟨⟩
  exact ⟨hx.1, by rw [hline, hhead, hx.2]⟩

/-- The response for what is in hand is sent. -/
theorem call_sent {text : String} (S : Sequenced q r past s (some (x, false)))
    (haccepted : ∀ i, o.accepted? i = p.gained? i p') (hqr : q ≠ r)
    (hs : p.stores[q]? = some s)
    (made : p.stepCall canceled call move = some (p₁, .ended (.ok reply)))
    (hstores : p'.stores = p₁.stores) (hstore : call.handle.store = r)
    (hrequest : call.request = .send text) (hgone : o.gone? q = none)
    (resulted : Resulted q past x.delivery.ticket text) :
    ∃ s', p'.stores[q]? = some s' ∧ Sequenced q r (o :: past) s' (some (x, true)) := by
  subst hstore
  obtain ⟨s₁, -, hs₁, -, -⟩ := Plant.stepCall_succeeded made
  obtain ⟨s', hs', st, hothers⟩ := Plant.stepCall_done made hs₁
  rw [← hstores] at hs' hothers
  rw [hrequest] at st
  obtain ⟨id, hgained⟩ := st.gained?_sent
  have hsame := hothers q hqr.symm
  have hq' : o.accepted? q = none := (haccepted q).trans (Plant.gained?_self q hsame)
  have hr' : o.accepted? call.handle.store = some (id, text) :=
    (haccepted _).trans ((Plant.gained?_of_stores hs₁ hs').trans hgained)
  exact ⟨s, hsame.trans hs, S.sent resulted hq' hr' hgone⟩

/-- What is in hand is deleted, once its response is accepted. -/
theorem call_deleted {d : Delivery} (S : Sequenced q r past s (some (x, true)))
    (haccepted : ∀ i, o.accepted? i = p.gained? i p') (hqr : q ≠ r)
    (hs : p.stores[q]? = some s)
    (made : p.stepCall canceled call move = some (p₁, .ended (.ok reply)))
    (hstores : p'.stores = p₁.stores) (hstore : call.handle.store = q)
    (hrequest : call.request = .delete d) (hgone : o.gone? q = some x.delivery.ticket) :
    ∃ s', p'.stores[q]? = some s' ∧ Sequenced q r (o :: past) s' none := by
  obtain ⟨s', hs', st, hq', hr'⟩ := unaccepted haccepted hqr hs made hstores hstore
    (by rw [hrequest]; exact nofun)
  rw [hrequest] at st
  obtain ⟨hline, hheld⟩ := st.line_deleted S.single
  exact ⟨s', hs', S.deleted hline hheld hq' hr' hgone⟩

/-- What is in hand is given back, and is the next to be taken. -/
theorem call_returned {d : Delivery} (S : Sequenced q r past s (some (x, false)))
    (haccepted : ∀ i, o.accepted? i = p.gained? i p') (hqr : q ≠ r)
    (hs : p.stores[q]? = some s)
    (made : p.stepCall canceled call move = some (p₁, .ended (.ok reply)))
    (hstores : p'.stores = p₁.stores) (hstore : call.handle.store = q)
    (hrequest : call.request = .giveBack d) (hgone : o.gone? q = none) :
    ∃ s', p'.stores[q]? = some s' ∧ Sequenced q r (o :: past) s' none := by
  obtain ⟨s', hs', st, hq', hr'⟩ := unaccepted haccepted hqr hs made hstores hstore
    (by rw [hrequest]; exact nofun)
  rw [hrequest] at st
  obtain ⟨hline, hheld⟩ := st.line_returned S.single
  refine ⟨s', hs', S.of_line hline rfl hq' hr' hgone ?_ (fun _ => hheld) nofun⟩
  rw [hheld]
  exact Nat.zero_le _

end Sequenced

theorem Work.Job.isDeleting_proceed {κ : Type} (job : Job κ) (call : κ) :
    (job.proceed call).isDeleting = job.isDeleting := by
  cases job <;> rfl

theorem Occurrence.gone?_of_settled {q : Nat} {o : Occurrence} (h : o.settled? = none) :
    o.gone? q = none := by
  rw [gone?, deleted?, h, Option.bind_none]

theorem Occurrence.gone?_of_undeleted {q : Nat} {o : Occurrence} {x : Iteration}
    {command : Command} {result : Except Queue.Failure Queue.Reply}
    (h : o.settled? = some (x, command, result)) (hcommand : command ≠ .delete) :
    o.gone? q = none := by
  rw [gone?, deleted?, h]
  cases command with
  | delete => exact absurd rfl hcommand
  | _ => rfl

/-- A step of the consumer that has everything in hand keeps the stores and its hand in order. -/
theorem Work.Consumer.Step.sequenced {q r : Nat} {past : List Occurrence} {s s₀ : Store}
    {o : Occurrence} {p p' : Plant} {c c' : Consumer} {canceled : Bool} {move : ConsumerMove}
    (st : c.Step canceled p move p' c') (S : Sequenced q r past s c.stage?)
    (hs : p.stores[q]? = some s) (hq : c.post.requests.store = q)
    (hr : c.post.responses.store = r) (hqr : q ≠ r) (b : c.Backed q r past s₀)
    (haccepted : ∀ i, o.accepted? i = p.gained? i p')
    (hsettled : o.settled? = c.stage?.bind fun stage => (c.settled? p move).map (stage.1, ·))
    (unfailing : ∀ x ∈ o.unended?, x.handle.store ≠ q) (uncrashed : ∀ text, move ≠ .crash text) :
    ∃ s', p'.stores[q]? = some s' ∧ Sequenced q r (o :: past) s' c'.stage? := by
  have hreceiving : ∀ {call}, c.activity = .receiving call →
      c.stage? = none ∧ o.gone? q = none ∧ call.handle.store = q ∧ call.request = .take 1 := by
    intro call doing
    have hstage : c.stage? = none := by rw [stage?, doing]
    rw [hstage] at hsettled
    obtain ⟨hhandle, hrequest⟩ := b.inShape.errand (by rw [call?, doing]) (by rw [duty?, doing])
    exact ⟨hstage, Occurrence.gone?_of_settled hsettled, by rw [hhandle]; exact hq, hrequest⟩
  have hworking : ∀ {h d k job}, c.activity = .working h d k job →
      c.stage? = some (⟨c.post, h, d, k⟩, job.isDeleting) ∧ h.store = q ∧
        o.settled? = (c.settled? p move).map (⟨c.post, h, d, k⟩, ·) := by
    intro h d k job doing
    have hstage := stage?_of_working doing
    rw [hstage] at hsettled
    obtain ⟨hstore, -⟩ := S.front _ hstage
    exact ⟨hstage, hstore, hsettled⟩
  cases st with
  | waited doing went =>
    obtain ⟨hstage, hgone, -⟩ := hreceiving doing
    rw [hstage] at S
    exact S.still hs (.of_stepCall went rfl) haccepted hgone
  | began doing came =>
    obtain ⟨hstage, hgone, hstore, hrequest⟩ := hreceiving doing
    rw [hstage] at S
    exact S.call_took haccepted hqr hs came rfl hstore hrequest hgone List.mem_cons_self
      ⟨hq, rfl⟩
  | @unserved call callMove p₁ reply result doing ended _ empty =>
    obtain ⟨hstage, hgone, hstore, hrequest⟩ := hreceiving doing
    obtain ⟨boards, hplant⟩ := conclude_plant p₁ c result
    rw [hstage] at S
    rw [hplant] at haccepted ⊢
    rw [stage?_conclude]
    cases reply with
    | error f =>
      exact S.still hs (Plant.Quiet.of_stepCall ended rfl |>.trans_stores rfl) haccepted hgone
    | ok reply =>
      -- A store that answers the wait of a consumer has a request for it.
      obtain ⟨_, _, -, -, st⟩ := Plant.stepCall_succeeded ended
      rw [hrequest] at st
      obtain ⟨d, rest, rfl⟩ := st.exists_batch
      exact absurd rfl (empty d rest)
  | @proceeded h d k job call call' callMove p₁ doing calling went =>
    obtain ⟨hstage, -, hsettled⟩ := hworking doing
    obtain ⟨command, hcommand⟩ := Job.exists_command calling
    rw [settled?_of_working doing calling hcommand went] at hsettled
    have hstage' : Consumer.stage? { c with activity := .working h d k (job.proceed call') }
        = c.stage? := by
      rw [hstage, ← Job.isDeleting_proceed job call']
      rfl
    rw [hstage']
    exact S.still hs (.of_stepCall went rfl) haccepted (Occurrence.gone?_of_settled hsettled)
  | @sent h d k text call callMove p₁ reply doing ended =>
    obtain ⟨hstage, hstore, hsettled⟩ := hworking doing
    rw [settled?_of_working doing rfl rfl ended] at hsettled
    rw [hstage] at S
    obtain ⟨hhandle, hrequest⟩ := b.inShape.errand_of_command doing rfl rfl
    -- It sends what its handler has returned, which is on record.
    obtain ⟨-, -, o₁, ho₁, hanswers⟩ := b.working h d k _ doing hstore
    exact S.call_sent haccepted hqr hs ended rfl (by rw [hhandle]; exact hr) hrequest
      (Occurrence.gone?_of_undeleted hsettled (by simp)) ⟨o₁, ho₁, d, rfl, hanswers⟩
  | unsent doing ended =>
    obtain ⟨hstage, -, hsettled⟩ := hworking doing
    rw [settled?_of_working doing rfl rfl ended] at hsettled
    rw [hstage] at S
    exact S.still hs (Plant.Quiet.of_stepCall ended rfl |>.trans_stores rfl) haccepted
      (Occurrence.gone?_of_undeleted hsettled (by simp))
  | @closed h d k job call callMove p₁ reply result doing calling ended last =>
    obtain ⟨hstage, hstore, hsettled⟩ := hworking doing
    obtain ⟨boards, hplant⟩ := conclude_plant
      ((p₁.onBoard c.post.board (job.credit (reply.map fun _ => ()))).onBoard c.post.board .finish)
      c result
    rw [hplant] at haccepted ⊢
    rw [stage?_conclude]
    rw [hstage] at S
    -- Nothing is in hand afterwards, so what was in hand must be gone from the store, or be free.
    cases job with
    | deleting call₀ =>
      cases calling
      rw [settled?_of_working doing rfl rfl ended] at hsettled
      obtain ⟨hhandle, hrequest⟩ := b.inShape.errand_of_command doing rfl rfl
      cases reply with
      | error f => exact absurd hstore (unfailing _ (by rw [Occurrence.unended?, hsettled]; rfl))
      | ok reply =>
        refine S.call_deleted haccepted hqr hs ended rfl (by rw [hhandle]; exact hstore) hrequest ?_
        rw [Occurrence.gone?, Occurrence.deleted?, hsettled]
        exact if_pos hstore
    | returning result₀ call₀ =>
      cases calling
      rw [settled?_of_working doing rfl rfl ended] at hsettled
      obtain ⟨hhandle, hrequest⟩ := b.inShape.errand_of_command doing rfl rfl
      cases reply with
      | error f => exact absurd hstore (unfailing _ (by rw [Occurrence.unended?, hsettled]; rfl))
      | ok reply =>
        exact S.call_returned haccepted hqr hs ended rfl (by rw [hhandle]; exact hstore) hrequest
          (Occurrence.gone?_of_undeleted hsettled (by simp))
    -- After a response the work goes on, and without a call it cannot end here.
    | sending => cases reply <;> cases last
    | _ => cases calling
  | answered a doing =>
    obtain ⟨hstage, -, hsettled⟩ := hworking doing
    rw [hstage] at S
    exact S.still hs (.of_stores rfl) haccepted (Occurrence.gone?_of_settled hsettled)
  | crashed text => exact absurd rfl (uncrashed text)
  | settled doing collected | refused doing collected =>
    obtain ⟨hstage, -, hsettled⟩ := hworking doing
    rw [hstage] at S
    exact S.still hs (.of_stores (by rw [(Plant.collectKeeper?_cases collected).2])) haccepted
      (Occurrence.gone?_of_settled hsettled)

/-! ### Runs -/

section
variable {i : Nat} {post : Post} {o : Crew.Options} {w w' : World} {event : Event}
  {stores : List Store} {past : List Occurrence} {q r : Nat}

/-- Nothing is deleted with an event that is not about the crew, if everybody else keeps out. -/
theorem World.gone?_outside (e : w.Elsewhere i (Agent.KeepsOut q r))
    (happens : w.step event = some w') (no_move : ∀ move, event ≠ .move i move) :
    (⟨w, event, w'⟩ : Occurrence).gone? q = none := by
  refine Option.eq_none_iff_forall_ne_some.mpr fun ticket hgone => ?_
  obtain ⟨x, hdeleted, hx⟩ := Option.bind_eq_some_iff.mp hgone
  obtain ⟨reply, hsettled⟩ := Occurrence.deleted?_eq_some.mp hdeleted
  rw [World.settled?_eq happens] at hsettled
  simp only [Option.bind_eq_some_iff, Option.map_eq_some_iff] at hsettled
  obtain ⟨⟨c, move⟩, hworker, stage, hc, _, -, heq⟩ := hsettled
  cases heq
  -- Whoever deletes is somebody else, and at work on another store.
  obtain ⟨-, -, hstage⟩ := e.worker no_move hworker
  rw [if_neg (hstage stage hc)] at hx
  cases hx

/-- A crew that is alone serves: nobody deletes a request that it has not answered. -/
theorem Crew.Sole.onlyServed (allowed : Crew.Sole i post o w event) :
    OnlyServed post.requests.store post.responses.store w event := by
  cases event with
  | join party =>
    intro a ha
    have hjoins : if w.parties.length = i then _ else _ := allowed
    split at hjoins
    · obtain ⟨isCanceled, task⟩ := party
      obtain rfl : task = .crew (.create post o) := hjoins
      obtain rfl := List.mem_singleton.mp ha
      exact fun _ => rfl
    · have hvisit := hjoins a ha
      cases a with
      | consumer c => exact ⟨hvisit.1, fun hq => absurd hq hvisit.2.1⟩
      | crew post' => exact fun hq => absurd hq hvisit.1
      | caller call =>
        intro hq d hdelete
        have htends := hvisit.1 hq
        rw [hdelete] at htends
        cases htends
      | receiver call | source call => exact hvisit.1
      | collector k => trivial
  | assign post' handle d =>
    obtain ⟨-, hpost, hhandle⟩ := allowed
    exact ⟨fun hq => absurd hq hpost.1, fun hq => absurd hq hhandle⟩
  | _ => trivial

/-- The stores and the hand of the crew are in order in every run. -/
theorem Run.sequenced {name : String} {lease : Nat}
    (hq : stores[post.requests.store]? = some (.empty name lease))
    (hqr : post.requests.store ≠ post.responses.store) (size : o.size = 1)
    (run : Run stores (Crew.Sole i post o) past w)
    (unfailing : ∀ e ∈ past, ∀ x ∈ e.unended?, x.handle.store ≠ post.requests.store) :
    ∃ s, w.plant.stores[post.requests.store]? = some s ∧
      Sequenced post.requests.store post.responses.store past s (w.hand? i) := by
  induction run with
  | start =>
    exact ⟨_, hq, rfl, .nil, Nat.zero_le _, fun _ => rfl, nofun⟩
  | @step past w w' event before allowed happens ih =>
    rw [List.forall_mem_cons] at unfailing
    obtain ⟨s, hs, S⟩ := ih unfailing.2
    have e := before.keepOut
    have crewed := fun party (hparty : w.parties[i]? = some party) =>
      (before.sole_inOrder hparty).imp fun _ h => h.1
    cases World.step_sole allowed happens crewed with
    | outside same no_move no_drop =>
      have hhand : w'.hand? i = w.hand? i := by rw [World.hand?, same, World.hand?]
      rw [hhand]
      exact S.still hs (World.step_quiet e before.keepersOrderly happens no_move no_drop)
        (fun _ => rfl) (World.gone?_outside e happens no_move)
    | joined absent there same =>
      have hhand : w'.hand? i = w.hand? i := by
        rw [World.hand?, World.hand?, there, absent]
        rfl
      rw [hhand]
      exact S.still hs (.of_stores (by rw [same])) (fun _ => rfl)
        (Occurrence.gone?_of_settled rfl)
    | canceled there there' same =>
      have hhand : w'.hand? i = w.hand? i := by
        rw [World.hand?, World.hand?, there, there']
      rw [hhand]
      exact S.still hs (.of_stores (by rw [same])) (fun _ => rfl)
        (Occurrence.gone?_of_settled rfl)
    | @moved isCanceled crew move roster there there' whole st =>
      obtain ⟨_, hcrew, ord⟩ := before.sole_inOrder there
      cases hcrew
      have hhand : w.hand? i = crew.hand? := by rw [World.hand?, there]
      have hhand' : w'.hand? i = (⟨crew.post, roster⟩ : Crew.Run).hand? := by
        rw [World.hand?, there']
      have hworker : w.worker? (.move i (.crew move)) = crew.worker? move := by
        simp only [World.worker?, there, Option.bind_some, Party.worker?]
      have hsettled := World.settled?_eq happens
      rw [hworker] at hsettled
      rcases st.hand_cases ord size (by rintro rfl; cases whole) with
        ⟨hplant, hidle, hsame⟩ | ⟨j, c, c', cmove, rfl, running, st, hbefore, hafter⟩
      · -- The crew is busy with its slots, and nobody in them moves.
        rw [hhand', hsame, ← hhand]
        rw [hidle] at hsettled
        exact S.still hs (.of_stores (by rw [hplant])) (fun _ => rfl)
          (Occurrence.gone?_of_settled hsettled)
      · have hmoves : crew.worker? (.consume j cmove) = some (c, cmove) := by
          rw [Crew.Run.worker?, running]
        rw [hmoves] at hsettled
        rw [hhand', hafter]
        rw [hhand, hbefore] at S
        have hpost : c.post = post :=
          (ord.consumers c (List.mem_of_getElem? running)).1.trans ord.post
        -- Its consumer works on what was delivered, and answers with what its handler returned.
        obtain ⟨s₀, delivered⟩ := (before.mono fun _ _ h => h.onlyServed).exists_delivered hq
        have backed := delivered.backed _ (World.mem_of_worker? (hworker.trans hmoves))
        refine st.sequenced S hs (by rw [hpost]) (by rw [hpost]) hqr backed
          (fun _ => rfl) hsettled unfailing.1 ?_
        rintro text rfl
        cases whole

/-- The responses are in order:

- `answered`: one response for each of the first requests, which a handler returned for it;
- `deleted`: the requests that have been deleted are the first ones as well;
- `pace`: all that were answered have been deleted, but for the last one perhaps. -/
structure InSequence (q r : Nat) (past : List Occurrence) : Prop where
  answered : List.Forall₂ (Resulted q past)
    ((acceptedBy q past).take (acceptedBy r past).length) ((acceptedBy r past).map Prod.snd)
  deleted : goneFrom q past = (acceptedBy q past).take (goneFrom q past).length
  pace : (goneFrom q past).length ≤ (acceptedBy r past).length ∧
    (acceptedBy r past).length ≤ (goneFrom q past).length + 1

/-- What has been answered comes first among the requests that were accepted. -/
theorem Sequenced.answered_prefix {s : Store} {hand : Option (Iteration × Bool)}
    (S : Sequenced q r past s hand) :
    goneFrom q past ++ answeredIn hand <+: acceptedBy q past := by
  rw [S.requests]
  refine (List.prefix_append_right_inj _).mpr ?_
  match hand, S with
  | none, _ | some (_, false), _ => exact List.nil_prefix
  | some (x, true), S =>
    rw [List.eq_cons_of_mem_head? (S.front _ rfl).2]
    exact List.prefix_append [_] _

theorem Sequenced.toInSequence {s : Store} {hand : Option (Iteration × Bool)}
    (S : Sequenced q r past s hand) : InSequence q r past := by
  have hlength := S.responses.length_eq
  rw [List.length_append, List.length_map] at hlength
  have hone : (answeredIn hand).length ≤ 1 := by
    match hand with
    | none | some (_, false) => exact Nat.zero_le _
    | some (_, true) => exact Nat.le_refl _
  refine ⟨?_, ?_, by omega, by omega⟩
  · rw [← hlength, ← List.length_append, ← List.prefix_iff_eq_take.mp S.answered_prefix]
    exact S.responses
  · exact List.prefix_iff_eq_take.mp ((List.prefix_append _ _).trans S.answered_prefix)

/-- In order and exactly once: a crew with one slot that has two stores to itself answers the
requests one by one, however often a handler refuses and a response is not accepted, as long as
every request that is to be deleted or given back really is. -/
theorem Run.inSequence {name : String} {lease : Nat}
    (hq : stores[post.requests.store]? = some (.empty name lease))
    (hqr : post.requests.store ≠ post.responses.store) (size : o.size = 1)
    (run : Run stores (Crew.Sole i post o) past w)
    (unfailing : ∀ e ∈ past, ∀ x ∈ e.unended?, x.handle.store ≠ post.requests.store) :
    InSequence post.requests.store post.responses.store past := by
  obtain ⟨s, -, S⟩ := run.sequenced hq hqr size unfailing
  exact S.toInSequence

end

/-- There are two requests. The handler refuses the first one, and the next response for it is not
accepted, so the slot pauses twice. Then it is answered and deleted, and the second request is
answered. -/
def retriedRequest : List Event :=
  [.move 2 (.crew (.consume 0 (.call .go))), .move 2 (.crew (.consume 0 .settle)), .keeper 3,
    .move 2 (.crew (.consume 0 (.answer (.ok "B")))), .move 2 (.crew (.consume 0 (.call .go))),
    .move 2 (.crew (.consume 0 (.call .go))), .move 2 (.crew (.consume 0 (.call .go))),
    .move 2 (.crew (.consume 0 .settle)), .keeper 2,
    .move 2 (.crew (.consume 0 (.answer (.ok "A")))), .move 2 (.crew (.consume 0 (.call .go))),
    .move 2 (.crew .staff), .move 2 (.crew (.reap 0)), .move 2 (.crew (.rested 0)),
    .advance 2000, .move 2 (.crew (.consume 0 (.call .go))),
    .move 2 (.crew (.consume 0 (.call .go))), .inject 1 .send 1,
    .move 2 (.crew (.consume 0 .settle)), .keeper 1,
    .move 2 (.crew (.consume 0 (.answer (.ok "A?")))), .move 2 (.crew (.consume 0 (.call .go))),
    .move 2 (.crew .staff), .move 2 (.crew (.reap 0)), .move 2 (.crew (.rested 0)),
    .advance 1000, .move 2 (.crew (.consume 0 (.call .go))),
    .move 2 (.crew (.consume 0 .settle)), .keeper 0,
    .move 2 (.crew (.consume 0 (.answer (.error (.failed "no"))))),
    .move 2 (.crew (.consume 0 (.call .go))), .move 2 (.crew .staff),
    .move 2 (.crew (.started (.ok ()))),
    .join ⟨false, .crew (.create ⟨⟨0, .none⟩, ⟨1, .none⟩, 0, 3750000000⟩ ⟨1, 3000, 1000⟩)⟩,
    .move 1 (.call .go), .join ⟨false, .call (.start ⟨0, .none⟩ (.send "b"))⟩,
    .move 0 (.call .go), .join ⟨false, .call (.start ⟨0, .none⟩ (.send "a"))⟩, .board]

/-- In order, with two failures on the first request, while the second one is still to be
deleted. -/
theorem inSequence_retriedRequest :
    ∃ past w,
      (past, w) ∈ World.play [.empty "q" 5000000000, .empty "r" 5000000000] retriedRequest ∧
      acceptedBy 0 past = [("q-1", "a"), ("q-2", "b")] ∧
      (acceptedBy 1 past).map Prod.snd = ["A", "B"] ∧ goneFrom 0 past = [("q-1", "a")] ∧
      InSequence 0 1 past := by
  have hplayed : ∃ run ∈ World.play [.empty "q" 5000000000, .empty "r" 5000000000] retriedRequest,
      (acceptedBy 0 run.1 = [("q-1", "a"), ("q-2", "b")] ∧
        (acceptedBy 1 run.1).map Prod.snd = ["A", "B"] ∧ goneFrom 0 run.1 = [("q-1", "a")]) ∧
      (∀ o ∈ run.1, Crew.Sole 2 ⟨⟨0, .none⟩, ⟨1, .none⟩, 0, 3750000000⟩ ⟨1, 3000, 1000⟩
        o.before o.event) ∧ ∀ o ∈ run.1, ∀ x ∈ o.unended?, x.handle.store ≠ 0 := by
    decide
  obtain ⟨⟨past, w⟩, hplay, ⟨hrequests, hresponses, hgone⟩, hallowed, unfailing⟩ := hplayed
  exact ⟨past, w, hplay, hrequests, hresponses, hgone,
    Run.inSequence rfl (by decide) rfl (Run.play hplay hallowed) unfailing⟩

end Leasework
