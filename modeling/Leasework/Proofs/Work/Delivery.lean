import Leasework.Proofs.World.Runs

/-!
# `Leasework.Proofs.Work.Delivery`: no request is lost

Consumers take requests from one store and send responses to another. Their calls, their
keepers and all other parties take turns in any order; leases run out, calls are throttled,
fail or are canceled, handlers crash, and parties are dropped in the middle of anything.

`Run.delivered` says that a request outlives all that: at every moment each request that was
ever accepted is still in the store, under its id and with its content, or it was deleted
after the other store had accepted the response that a handler returned for this content.

The invariant is about agents. `Agent.Backed` says what the record has to show for the stage
that a consumer is at: an answer before the response is sent, and an accepted response
before the request is deleted. A consumer in shape deletes only its own delivery, so a
deletion always has its evidence on record.
-/

set_option autoImplicit false

namespace Leasework

open Queue (Call Deed Delivery Orderly Outcome Store)
open Work (Consumer ConsumerMove Job Post)

/-! ### Messages in a store -/

section
variable {now : Nat} {s s' : Store} {id content : String}

/-- A store has a message with an id and a content, visible or held. -/
def Queue.Store.Has (s : Store) (id content : String) : Prop :=
  ∃ m ∈ s.messages, s.idOf m = id ∧ m.content = content

/-- What a store has can be read off its stock. -/
theorem Queue.Store.has_iff : s.Has id content ↔
    ∃ n, (n, content) ∈ s.stock ∧ s.name ++ "-" ++ toString n = id := by
  constructor
  · rintro ⟨m, hm, rfl, rfl⟩
    exact ⟨m.number, List.mem_map.mpr ⟨m, hm, rfl⟩, rfl⟩
  · rintro ⟨n, hn, rfl⟩
    obtain ⟨m, hm, hlabel⟩ := List.mem_map.mp hn
    obtain ⟨rfl, rfl⟩ := Prod.mk.inj hlabel
    exact ⟨m, hm, rfl, rfl⟩

/-- A message that a store has stays there, unless it is the one that is deleted. -/
theorem Queue.Store.Step.has {deed : Deed} {outcome : Option Outcome} (o : Orderly s)
    (st : Store.Step now s deed s' outcome) (hhas : s.Has id content) :
    s'.Has id content ∨ ∃ d h, deed = .attempt (.delete d) ∧ h ∈ s.held ∧
      h.receipt = d.receipt ∧ s.idOf h.message = id ∧ h.message.content = content ∧
      ∀ content', ¬ s'.Has id content' := by
  obtain ⟨n, hn, hid⟩ := Store.has_iff.mp hhas
  have hkeep : (n, content) ∈ s'.stock → s'.Has id content := by
    intro hn'
    exact Store.has_iff.mpr ⟨n, hn', by rw [st.name_lease.1]; exact hid⟩
  rcases st.stock_cases o with hstock | ⟨_, -, hstock⟩ | ⟨d, h, hdeed, hheld, hr, hstock⟩
  · exact Or.inl (hkeep (hstock.mem_iff.mpr hn))
  · exact Or.inl (hkeep (hstock.mem_iff.mpr (List.mem_cons_of_mem _ hn)))
  · rcases List.mem_cons.mp (hstock.mem_iff.mp hn) with hlabel | hn
    · obtain ⟨hnumber, hcontent⟩ := Prod.mk.inj hlabel
      refine Or.inr ⟨d, h, hdeed, hheld, hr, ?_, hcontent.symm, fun content' hhas' => ?_⟩
      · rw [← hid, hnumber]
        rfl
      · -- The number is gone with the message, because numbers are distinct.
        obtain ⟨n', hn', hid'⟩ := Store.has_iff.mp hhas'
        have hsame : n' = n := by
          have heq : s.idOf ⟨n', "", 0⟩ = s.idOf ⟨n, "", 0⟩ := by
            rw [st.name_lease.1] at hid'
            exact hid'.trans hid.symm
          exact Store.idOf_inj.mp heq
        have hnd := (hstock.map Prod.fst).nodup_iff.mp o.numbers_nodup
        refine (List.nodup_cons.mp hnd).1 (List.mem_map.mpr ⟨_, hn', ?_⟩)
        exact hsame.trans hnumber
    · exact Or.inl (hkeep hn)

/-- A store has what it has just accepted. -/
theorem Queue.Store.has_append (content : String) (s : Store) :
    (s.append content).signal.Has (s.idOf ⟨s.numbered + 1, content, 0⟩) content :=
  Store.has_iff.mpr
    ⟨s.numbered + 1, (Store.stock_append content s).mem_iff.mpr List.mem_cons_self, rfl⟩

end

/-! ### What is on record -/

namespace Occurrence

/-- The store at a position accepts a message: it has got an id. -/
def Accepts (q : Nat) (id content : String) (o : Occurrence) : Prop :=
  ∃ s, o.before.plant.stores[q]? = some s ∧
    o.after.plant.stores[q]? = some (s.append content).signal ∧
    s.idOf ⟨s.numbered + 1, content, 0⟩ = id

instance (q : Nat) (id content : String) (o : Occurrence) :
    Decidable (o.Accepts q id content) :=
  inferInstanceAs (Decidable (∃ s ∈ o.before.plant.stores[q]?,
    o.after.plant.stores[q]? = some (s.append content).signal ∧
      s.idOf ⟨s.numbered + 1, content, 0⟩ = id))

/-- The handler of a consumer that works on a delivery returns a response. -/
def Answers (q : Nat) (d : Delivery) (text : String) (o : Occurrence) : Prop :=
  ∃ c h k, o.before.worker? o.event = some (c, .answer (.ok text)) ∧
    c.activity = .working h d k .handling ∧ h.store = q

/-- A consumer that works on a delivery has its response accepted by another store. -/
def Responds (q r : Nat) (d : Delivery) (text : String) (o : Occurrence) : Prop :=
  (∃ c h k call move, o.before.worker? o.event = some (c, .call move) ∧
    c.activity = .working h d k (.sending text call) ∧ h.store = q) ∧
  ∃ id, o.Accepts r id text

/-- A message leaves the store at a position for good. -/
def Deletes (q : Nat) (id : String) (o : Occurrence) : Prop :=
  ∃ s s', o.before.plant.stores[q]? = some s ∧ o.after.plant.stores[q]? = some s' ∧
    (∃ content, s.Has id content) ∧ ∀ content, ¬ s'.Has id content

end Occurrence

/-- A handler returned a response for a request, the response was accepted, and then the
request was deleted, in this order. The newest occurrence stands first. -/
def Answered (q r : Nat) (past : List Occurrence) (id content : String) : Prop :=
  ∃ d text o₁ o₂ o₃, d.id = id ∧ d.content = content ∧ [o₃, o₂, o₁].Sublist past ∧
    o₁.Answers q d text ∧ o₂.Responds q r d text ∧ o₃.Deletes q id

/-! ### Who may take part -/

/-- Whoever takes requests from one store sends responses to the other. -/
def Work.Post.Serves (q r : Nat) (post : Post) : Prop :=
  post.requests.store = q → post.responses.store = r

/-- Who may join: consumers that have not begun, crews, and anybody who deletes no request. -/
def Agent.MayJoin (q r : Nat) : Agent → Prop
  | .consumer c => (∃ post repeats, c = .waiting post repeats) ∧ c.post.Serves q r
  | .crew post => post.Serves q r
  | .caller call => call.handle.store = q → ∀ d, call.request ≠ .delete d
  | .receiver call => call.handle.store ≠ q
  | .source call => call.handle.store ≠ q
  | .collector _ => True

/-- What may happen: anything at all, but those who join delete no request, and a request that
is handed to a consumer was delivered by the store. -/
def OnlyServed (q r : Nat) (w : World) : Event → Prop
  | .join party => ∀ a ∈ party.agents, a.MayJoin q r
  | .assign post handle d => post.Serves q r ∧
      (handle.store = q → post.responses.store = r ∧
        ∀ s, w.plant.stores[q]? = some s → s.Genuine d)
  | _ => True

/-! ### What the record shows for an agent -/

/-- What the record shows for the stage that the work on a delivery is at. -/
def Work.Job.Backed (q r : Nat) (past : List Occurrence) (d : Delivery) : Job Call → Prop
  | .settling (.ok text) => ∃ o ∈ past, o.Answers q d text
  | .sending text _ => ∃ o ∈ past, o.Answers q d text
  | .deleting _ => ∃ text o₁ o₂, [o₂, o₁].Sublist past ∧ o₁.Answers q d text ∧
      o₂.Responds q r d text
  | _ => True

/-- A consumer is in shape and at a post that serves, and what it works on is backed. -/
structure Work.Consumer.Backed (q r : Nat) (past : List Occurrence) (s : Store)
    (c : Consumer) : Prop where
  /-- It makes the call that belongs to what it does. -/
  inShape : c.InShape
  /-- Its responses go to the other store. -/
  serves : c.post.Serves q r
  /-- Work on a request is on a genuine delivery, and the record shows how far it is. -/
  working : ∀ h d k job, c.activity = .working h d k job → h.store = q →
    c.post.responses.store = r ∧ s.Genuine d ∧ job.Backed q r past d

/-- An agent deletes no request that has not been answered. -/
def Agent.Backed (q r : Nat) (past : List Occurrence) (s : Store) : Agent → Prop
  | .consumer c => c.Backed q r past s
  | a => a.MayJoin q r

section
variable {q r : Nat} {past : List Occurrence} {s s' : Store} {o : Occurrence}

/-- What is on record stays on record. -/
theorem Work.Job.Backed.cons {d : Delivery} {job : Job Call} (b : job.Backed q r past d)
    (o : Occurrence) : job.Backed q r (o :: past) d := by
  cases job with
  | settling a =>
    cases a with
    | ok text =>
      obtain ⟨o₁, ho₁, h⟩ := b
      exact ⟨o₁, List.mem_cons_of_mem _ ho₁, h⟩
    | error refusal => exact b
  | sending text call =>
    obtain ⟨o₁, ho₁, h⟩ := b
    exact ⟨o₁, List.mem_cons_of_mem _ ho₁, h⟩
  | deleting call =>
    obtain ⟨text, o₁, o₂, hsub, h⟩ := b
    exact ⟨text, o₁, o₂, hsub.cons o, h⟩
  | _ => exact b

theorem Answered.cons {id content : String} (a : Answered q r past id content)
    (o : Occurrence) : Answered q r (o :: past) id content := by
  obtain ⟨d, text, o₁, o₂, o₃, hid, hcontent, hsub, h⟩ := a
  exact ⟨d, text, o₁, o₂, o₃, hid, hcontent, hsub.cons o, h⟩

/-- An agent without the turn is as well backed as before. -/
theorem Agent.Backed.cons {a : Agent} (b : a.Backed q r past s) (o : Occurrence)
    (hgenuine : ∀ d, s.Genuine d → s'.Genuine d) : a.Backed q r (o :: past) s' := by
  cases a with
  | consumer c =>
    refine ⟨b.inShape, b.serves, fun h d k job hdoing hstore => ?_⟩
    obtain ⟨hresponses, hd, hjob⟩ := b.working h d k job hdoing hstore
    exact ⟨hresponses, hgenuine d hd, hjob.cons o⟩
  | _ => exact b

/-- Who joins is backed: nothing has to be on record for it. -/
theorem Agent.MayJoin.backed {a : Agent} (h : a.MayJoin q r) : a.Backed q r past s := by
  cases a with
  | consumer c =>
    obtain ⟨⟨post, repeats, rfl⟩, hserves⟩ := h
    refine ⟨Consumer.inShape_waiting post repeats, hserves, fun h d k job hdoing => ?_⟩
    cases hdoing
  | _ => exact h

/-! ### One event -/

/-- A call that has sent its message has had it accepted. -/
theorem accepts_of_call {p p' : Plant} {canceled : Bool} {call : Call} {move : Queue.CallMove}
    {reply : Queue.Reply} {text : String}
    (made : p.stepCall canceled call move = some (p', .ended (.ok reply)))
    (hrequest : call.request = .send text) (hbefore : o.before.plant = p)
    (hafter : o.after.plant.stores = p'.stores) :
    ∃ id, o.Accepts call.handle.store id text := by
  obtain ⟨s, s', hs, rfl, st⟩ := Plant.stepCall_succeeded made
  rw [hrequest] at st
  refine ⟨s.idOf ⟨s.numbered + 1, text, 0⟩, s, by rw [hbefore]; exact hs, ?_, rfl⟩
  rw [hafter, Plant.stores_withStore hs]
  cases st with
  | sent => rfl

/-- A step of a consumer is backed by the record, the step itself included. -/
theorem Work.Consumer.Step.backed {p p' : Plant} {canceled : Bool} {c c' : Consumer}
    {move : ConsumerMove} (st : c.Step canceled p move p' c') (b : c.Backed q r past s)
    (hs : p.stores[q]? = some s) (hs' : p'.stores[q]? = some s') (ord : Orderly s')
    (hgenuine : ∀ d, s.Genuine d → s'.Genuine d) (hbefore : o.before.plant = p)
    (hafter : o.after.plant = p')
    (hworker : o.before.worker? o.event = some (c, move)) : c'.Backed q r (o :: past) s' := by
  have hserves : c'.post.Serves q r := by
    rw [st.post]
    exact b.serves
  refine ⟨st.inShape b.inShape, hserves, ?_⟩
  cases st with
  | waited =>
    intro h d k job hdoing
    cases hdoing
  | @began call callMove p₁ d rest doing came =>
    -- The request has just been delivered, so it is genuine, and nothing is to be backed.
    intro h' d' k' job' hdoing hstore
    cases hdoing
    have herrand := b.inShape.errand (by rw [Consumer.call?, doing])
      (by rw [Consumer.duty?, doing])
    have hq : call.handle.store = q := by rw [herrand.1]; exact hstore
    obtain ⟨s₀, s₁, hs₀, rfl, st₀⟩ := Plant.stepCall_succeeded came
    subst hq
    obtain rfl : s₁ = s' := Option.some.inj ((Plant.stores_withStore hs₀ s₁).symm.trans hs')
    exact ⟨b.serves hstore, st₀.genuine_batch ord List.mem_cons_self, trivial⟩
  | unserved => exact fun h d k job hdoing => absurd hdoing Consumer.conclude_activity_ne
  | @proceeded h d k job call call' callMove p₁ doing calling went =>
    intro h' d' k' job' hdoing hstore
    cases hdoing
    obtain ⟨hresponses, hd, hjob⟩ := b.working h d k job doing hstore
    refine ⟨hresponses, hgenuine d hd, Job.Backed.cons ?_ o⟩
    cases job with
    | sending text call₀ => exact hjob
    | deleting call₀ => exact hjob
    | returning result call₀ => exact hjob
    | _ => cases calling
  | @sent h d k text call callMove p₁ reply doing ended =>
    intro h' d' k' job' hdoing hstore
    cases hdoing
    obtain ⟨hresponses, hd, o₁, ho₁, hanswers⟩ := b.working h d k _ doing hstore
    have herrand := b.inShape.errand (by rw [Consumer.call?, doing]; rfl)
      (by rw [Consumer.duty?, doing])
    have hr : call.handle.store = r := by rw [herrand.1]; exact hresponses
    obtain ⟨id, haccepts⟩ := accepts_of_call (o := o) ended herrand.2 hbefore
      (by rw [hafter]; rfl)
    rw [hr] at haccepts
    -- The response was returned earlier, and is accepted just now.
    refine ⟨hresponses, hgenuine d hd, text, o₁, o, ?_, hanswers, ?_, id, haccepts⟩
    · exact (List.singleton_sublist.mpr ho₁).cons_cons o
    · exact ⟨c, h, k, call, callMove, hworker, doing, hstore⟩
  | @unsent h d k text call callMove p₁ f doing ended =>
    intro h' d' k' job' hdoing hstore
    cases hdoing
    obtain ⟨hresponses, hd, -⟩ := b.working h d k _ doing hstore
    exact ⟨hresponses, hgenuine d hd, trivial⟩
  | closed => exact fun h d k job hdoing => absurd hdoing Consumer.conclude_activity_ne
  | @answered h d k a doing =>
    intro h' d' k' job' hdoing hstore
    cases hdoing
    obtain ⟨hresponses, hd, -⟩ := b.working h d k _ doing hstore
    refine ⟨hresponses, hgenuine d hd, ?_⟩
    cases a with
    -- The newest occurrence is the answer itself.
    | ok text =>
      exact ⟨o, List.mem_cons_self, c, h, k, hworker, doing, hstore⟩
    | error refusal => trivial
  | crashed =>
    intro h d k job hdoing
    cases hdoing
  | @settled h d k text p₁ keeper doing collected =>
    intro h' d' k' job' hdoing hstore
    cases hdoing
    obtain ⟨hresponses, hd, o₁, ho₁, hanswers⟩ := b.working h d k _ doing hstore
    exact ⟨hresponses, hgenuine d hd, o₁, List.mem_cons_of_mem _ ho₁, hanswers⟩
  | @refused h d k refusal p₁ keeper doing collected =>
    intro h' d' k' job' hdoing hstore
    cases hdoing
    obtain ⟨hresponses, hd, -⟩ := b.working h d k _ doing hstore
    exact ⟨hresponses, hgenuine d hd, trivial⟩

/-- What a turn produces is backed by the record, the turn itself included. -/
theorem Agent.Turn.backed {p p' : Plant} {worker : Option (Consumer × ConsumerMove)}
    {before after : List Agent} (t : Agent.Turn p worker before p' after)
    (hbacked : ∀ a ∈ before, a.Backed q r past s)
    (hs : p.stores[q]? = some s) (hs' : p'.stores[q]? = some s') (ord : Orderly s')
    (hgenuine : ∀ d, s.Genuine d → s'.Genuine d) (hbefore : o.before.plant = p)
    (hafter : o.after.plant = p') (hworker : o.before.worker? o.event = worker) :
    ∀ a ∈ after, a.Backed q r (o :: past) s' := by
  cases t with
  | idle => exact List.forall_mem_nil _
  | worked st =>
    refine List.forall_mem_singleton.mpr ?_
    exact st.backed (hbacked _ List.mem_cons_self) hs hs' ord hgenuine hbefore hafter hworker
  | retired => exact List.forall_mem_nil _
  | hired post =>
    have hpost : post.Serves q r := hbacked _ List.mem_cons_self
    refine List.forall_mem_cons.mpr ⟨hpost, List.forall_mem_singleton.mpr ?_⟩
    exact Agent.MayJoin.backed (a := .consumer (.waiting post true)) ⟨⟨post, true, rfl⟩, hpost⟩
  | dropped => exact List.forall_mem_nil _
  | @called canceled call call' move p₁ made =>
    have hcall : call.handle.store = q → ∀ d, call.request ≠ .delete d :=
      hbacked _ List.mem_cons_self
    refine List.forall_mem_singleton.mpr fun hstore d => ?_
    rw [(Plant.stepCall_same made).2]
    exact hcall ((Plant.stepCall_same made).1 ▸ hstore) d
  | answered => exact List.forall_mem_nil _
  | @awaited canceled call call' move p₁ made =>
    have hcall : call.handle.store ≠ q := hbacked _ List.mem_cons_self
    refine List.forall_mem_singleton.mpr ?_
    show call'.handle.store ≠ q
    rw [(Plant.stepCall_same made).1]
    exact hcall
  | @received canceled call move p₁ reply made =>
    have hcall : call.handle.store ≠ q := hbacked _ List.mem_cons_self
    intro a ha
    obtain ⟨deletion, hdeletion, rfl⟩ := List.mem_map.mp ha
    intro hstore
    -- A batch is deleted where it came from, and that is not the store of the requests.
    cases reply with
    | done => cases hdeletion
    | batch ds =>
      obtain ⟨d, -, rfl⟩ := List.mem_map.mp hdeletion
      exact absurd hstore hcall
  | missed => exact List.forall_mem_nil _
  | resumed call =>
    have hcall : call.handle.store ≠ q := hbacked _ List.mem_cons_self
    exact List.forall_mem_cons.mpr ⟨hcall, List.forall_mem_singleton.mpr hcall⟩
  | collected => exact List.forall_mem_nil _

/-- What holds in every world of a run: the record accounts for every request. -/
structure Delivered (q r : Nat) (past : List Occurrence) (w : World) (s : Store) : Prop where
  /-- The store of the requests. -/
  stored : w.plant.stores[q]? = some s
  /-- Its books are in order. -/
  orderly : Orderly s
  /-- Nobody deletes a request that has not been answered. -/
  backed : ∀ a ∈ w.agents, a.Backed q r past s
  /-- A request is in the store, or it was answered and then deleted. -/
  kept : ∀ o ∈ past, ∀ id content, o.Accepts q id content →
    s.Has id content ∨ Answered q r past id content

variable {w w' : World} {event : Event}

/-- A deletion has its evidence on record: only a consumer deletes requests, and it does so
after its response has been accepted. -/
theorem Delivered.answered_of_delete (i : Delivered q r past w s) {d : Delivery}
    (hdone : w.DoneBy q (.attempt (.delete d))) :
    s.Genuine d ∧ ∃ text o₁ o₂, [o₂, o₁].Sublist past ∧ o₁.Answers q d text ∧
      o₂.Responds q r d text := by
  rcases hdone with hnone | ⟨a, ha, call, hcall, hstore, hdeed⟩
  · cases hnone
  · have hrequest : call.request = .delete d := (Deed.attempt.inj hdeed).symm
    have hbacked := i.backed a ha
    cases a with
    | consumer c =>
      obtain ⟨k, hdoing | ⟨result, hdoing⟩⟩ :=
        hbacked.inShape.working hcall (by rw [hrequest]; rfl)
      · obtain ⟨-, hd, hjob⟩ := hbacked.working _ d k _ hdoing hstore
        exact ⟨hd, hjob⟩
      · -- Who gives a request back does not delete it.
        have herrand := hbacked.inShape.errand hcall (by rw [Consumer.duty?, hdoing])
        rw [hrequest] at herrand
        cases herrand.2
    | caller call₀ =>
      cases hcall
      exact absurd hrequest (hbacked hstore d)
    | receiver call₀ =>
      cases hcall
      exact absurd hstore hbacked
    | _ => cases hcall

/-- Every event keeps the record complete. -/
theorem Delivered.step (i : Delivered q r past w s) (ko : w.plant.KeepersOrderly)
    (allowed : OnlyServed q r w event) (happens : w.step event = some w') :
    ∃ s', Delivered q r (⟨w, event, w'⟩ :: past) w' s' := by
  obtain ⟨s', hs', hcase⟩ := World.step_touched ko happens q s i.stored
  have ord : Orderly s' := by
    rcases hcase with rfl | ⟨deed, outcome, -, st⟩
    · exact i.orderly
    · exact i.orderly.step st
  have hgenuine : ∀ d, s.Genuine d → s'.Genuine d := by
    intro d hd
    rcases hcase with rfl | ⟨deed, outcome, -, st⟩
    · exact hd
    · exact st.genuine hd
  refine ⟨s', hs', ord, fun a ha => ?_, fun o ho id content haccepts => ?_⟩
  · rcases World.agent_cases happens ha with
      ha | ⟨party, rfl, ha⟩ | ⟨post, handle, d, rfl, rfl⟩ | ⟨before, after, hbefore, ha, turn⟩
    -- It was there and has no turn, it joins, it has been given a request, or it had the turn.
    · exact (i.backed a ha).cons _ hgenuine
    · exact (allowed a ha).backed
    · obtain ⟨hserves, hgiven⟩ := allowed
      refine ⟨rfl, hserves, fun h d' k job hdoing hstore => ?_⟩
      cases hdoing
      obtain ⟨hresponses, hd⟩ := hgiven hstore
      exact ⟨hresponses, hgenuine d (hd s i.stored), trivial⟩
    · exact turn.backed (fun b hb => i.backed b (hbefore b hb)) i.stored hs' ord hgenuine
        rfl rfl rfl a ha
  · -- A request that was in the store is still there, or it is deleted right now.
    have hkept : s.Has id content →
        s'.Has id content ∨ Answered q r (⟨w, event, w'⟩ :: past) id content := by
      intro hhas
      rcases hcase with rfl | ⟨deed, outcome, hdone, st⟩
      · exact Or.inl hhas
      · rcases st.has i.orderly hhas with hhas' | ⟨d, h, rfl, hheld, hr, hid, hcontent, hgone⟩
        · exact Or.inl hhas'
        · obtain ⟨hd, text, o₁, o₂, hsub, hanswers, hresponds⟩ := i.answered_of_delete hdone
          obtain ⟨hid', hcontent'⟩ := hd.held h hheld hr
          refine Or.inr ⟨d, text, o₁, o₂, _, hid'.symm.trans hid, hcontent'.symm.trans hcontent,
            hsub.cons_cons _, hanswers, hresponds, s, s', i.stored, hs', ⟨content, hhas⟩, hgone⟩
    rcases List.mem_cons.mp ho with rfl | ho
    · obtain ⟨s₀, hs₀, hs₁, rfl⟩ := haccepts
      obtain rfl := Option.some.inj (hs₁.symm.trans hs')
      exact Or.inl (Store.has_append content s₀)
    · rcases i.kept o ho id content haccepts with hhas | hanswered
      · exact hkept hhas
      · exact Or.inr (hanswered.cons _)

/-- The record is complete in every run. -/
theorem Run.exists_delivered {stores : List Store} {name : String} {lease : Nat}
    (hq : stores[q]? = some (.empty name lease)) (run : Run stores (OnlyServed q r) past w) :
    ∃ s, Delivered q r past w s := by
  induction run with
  | start => exact ⟨_, hq, .empty name lease, List.forall_mem_nil _, List.forall_mem_nil _⟩
  | step event before allowed happens ih =>
    obtain ⟨s, i⟩ := ih
    exact i.step before.keepersOrderly allowed happens

/-- At least once: every request that was ever accepted is still in its store with its content,
or it was deleted after the response that a handler returned for it had been accepted. -/
theorem Run.delivered {stores : List Store} {name : String} {lease : Nat}
    (hq : stores[q]? = some (.empty name lease)) (run : Run stores (OnlyServed q r) past w)
    {id content : String} (ho : o ∈ past) (haccepts : o.Accepts q id content) :
    (∃ s, w.plant.stores[q]? = some s ∧ s.Has id content) ∨
      Answered q r past id content := by
  obtain ⟨s, i⟩ := run.exists_delivered hq
  rcases i.kept o ho id content haccepts with hhas | hanswered
  · exact Or.inl ⟨s, i.stored, hhas⟩
  · exact Or.inr hanswered

/-- A request is sent. A consumer takes it, the handler answers, the keeper ends, the response
is sent and the request is deleted. -/
def servedRequest : List Event :=
  [.move 1 (.consumer (.call .go)), .move 1 (.consumer (.call .go)),
    .move 1 (.consumer .settle), .keeper 0, .move 1 (.consumer (.answer (.ok "b"))),
    .move 1 (.consumer (.call .go)),
    .join ⟨false, .consumer (.waiting ⟨⟨0, .none⟩, ⟨1, .none⟩, 0, 6000000⟩ false)⟩,
    .move 0 (.call .go), .join ⟨false, .call (.start ⟨0, .none⟩ (.send "a"))⟩]

/-- At least once, for a request that is gone in the end: it was answered. -/
theorem delivered_servedRequest :
    ∃ past w, (past, w) ∈ World.play [.empty "q" 8000000, .empty "r" 8000000] servedRequest ∧
      Answered 0 1 past "q-1" "a" := by
  have hplayed : ∃ run ∈ World.play [.empty "q" 8000000, .empty "r" 8000000] servedRequest,
      (∃ o ∈ run.1, o.Accepts 0 "q-1" "a") ∧
        ∀ s ∈ run.2.plant.stores[0]?, s.stock = [] := by decide
  obtain ⟨⟨past, w⟩, hplay, ⟨o, ho, haccepts⟩, hempty⟩ := hplayed
  have hallowed : ∀ event ∈ servedRequest, ∀ w, OnlyServed 0 1 w event := by
    simp [servedRequest, OnlyServed, Party.agents, Agent.MayJoin, Post.Serves, Consumer.waiting,
      Call.start]
  have run : Run [.empty "q" 8000000, .empty "r" 8000000] (OnlyServed 0 1) past w := by
    refine Run.play hplay fun o ho => hallowed _ ?_ _
    rw [← World.map_event_play hplay]
    exact List.mem_map.mpr ⟨o, ho, rfl⟩
  refine ⟨past, w, hplay, ?_⟩
  rcases Run.delivered rfl run ho haccepts with ⟨s, hs, hhas⟩ | hanswered
  · obtain ⟨n, hn, -⟩ := Store.has_iff.mp hhas
    rw [hempty s hs] at hn
    cases hn
  · exact hanswered

end

end Leasework
