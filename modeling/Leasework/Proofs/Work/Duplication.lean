import Leasework.Proofs.Work.Delivery
import Leasework.Proofs.Work.Record

/-!
# `Leasework.Proofs.Work.Duplication`: how often a request is answered

A request may be answered more than once: its lease runs out while its response is on the way,
another consumer takes it, and both send. `Run.bounded` says how far this goes. Every iteration
sends at most one response. At most one deletion of the request succeeds, and after it the request
is delivered to nobody. Every other response comes from an iteration whose deletion failed, which
was dropped, or which still goes on.

That a request is deleted at most once is a fact about its store. Once it is `Gone` it never comes
back, because numbers are given out once; whoever deletes it has it held under a genuine receipt,
so it was not gone before.
-/

set_option autoImplicit false

namespace Leasework

open Queue (Call Deed Delivery Orderly Outcome Reply Store)
open Work (Consumer ConsumerMove Iteration)

/-! ### Messages that are gone -/

/-- A message with an id has been in a store, and it is not there any more. -/
def Queue.Store.Gone (s : Store) (id : String) : Prop :=
  ∃ n, 1 ≤ n ∧ n ≤ s.numbered ∧ n ∉ s.stock.map Prod.fst ∧ s.name ++ "-" ++ toString n = id

namespace Queue.Store
variable {now : Nat} {s s' : Store} {id : String} {deed : Deed} {outcome : Option Outcome}

theorem Gone.not_has (g : s.Gone id) (content : String) : ¬ s.Has id content := by
  obtain ⟨n, -, -, hnot, hid⟩ := g
  intro hhas
  obtain ⟨n', hn', hid'⟩ := has_iff.mp hhas
  have hsame : n' = n := by
    have heq : s.idOf ⟨n', "", 0⟩ = s.idOf ⟨n, "", 0⟩ := hid'.trans hid.symm
    exact idOf_inj.mp heq
  exact hnot (List.mem_map.mpr ⟨_, hn', hsame⟩)

theorem Step.numbered_le (st : Step now s deed s' outcome) : s.numbered ≤ s'.numbered := by
  cases st with
  | sent => exact Nat.le_succ _
  | _ => exact Nat.le_refl _

/-- What is gone stays gone. -/
theorem Step.gone (o : Orderly s) (st : Step now s deed s' outcome) (g : s.Gone id) :
    s'.Gone id := by
  obtain ⟨n, hpos, hn, hnot, hid⟩ := g
  have hid' : s'.name ++ "-" ++ toString n = id := by
    rw [st.name_lease.1]
    exact hid
  refine ⟨n, hpos, Nat.le_trans hn st.numbered_le, fun hmem => ?_, hid'⟩
  rcases st.stock_cases o with hstock | ⟨_, -, hstock⟩ | ⟨_, h, -, -, -, hstock⟩
  · exact hnot ((hstock.map Prod.fst).mem_iff.mp hmem)
  · -- A message that is sent has a number that none has had.
    rcases List.mem_cons.mp ((hstock.map Prod.fst).mem_iff.mp hmem) with rfl | hmem
    · exact absurd hn (Nat.not_succ_le_self _)
    · exact hnot hmem
  · exact hnot ((hstock.map Prod.fst).mem_iff.mpr (List.mem_cons_of_mem _ hmem))

/-- A deletion that succeeds makes a message go that was there. -/
theorem Step.gone_of_delete {d : Delivery} {reply : Reply} (o : Orderly s) (g : s.Genuine d)
    (st : Step now s (.attempt (.delete d)) s' (some (.answered (.ok reply)))) :
    ¬ s.Gone d.id ∧ s'.Gone d.id := by
  cases st with
  | deleted _ h safe found =>
    obtain ⟨hh, hr⟩ := mem_of_find? found
    have hheld : h ∈ s.held := (mem_held_reclaim.mp hh).1
    obtain ⟨hid, -⟩ := g.held h hheld hr
    have hmem : h.message ∈ s.messages :=
      List.mem_append_right _ (List.mem_map.mpr ⟨h, hheld, rfl⟩)
    have hlabel : h.message.label ∈ s.stock := List.mem_map.mpr ⟨_, hmem, rfl⟩
    have o' := o.reclaim now
    have hstock := stock_afterDeletion o'.receipts_nodup found
    have hnd := (hstock.map Prod.fst).nodup_iff.mp o'.numbers_nodup
    refine ⟨fun gone => gone.not_has _ ⟨h.message, hmem, hid, rfl⟩,
      h.message.number, (o.numbers _ hlabel).1, (o.numbers _ hlabel).2, ?_, hid⟩
    exact (List.nodup_cons.mp hnd).1

end Queue.Store

/-! ### What is on record -/

/-- An iteration is on a request, by the store and the id of its message. -/
def Work.Iteration.IsOn (q : Nat) (id : String) (x : Iteration) : Prop :=
  x.handle.store = q ∧ x.delivery.id = id

instance (q : Nat) (id : String) : DecidablePred (Iteration.IsOn q id) := fun x =>
  inferInstanceAs (Decidable (x.handle.store = q ∧ x.delivery.id = id))

/-- A store delivers a message, to whomever: it is held under a receipt that was not handed out
before. -/
def Occurrence.Delivers (q : Nat) (id : String) (o : Occurrence) : Prop :=
  ∃ s s', o.before.plant.stores[q]? = some s ∧ o.after.plant.stores[q]? = some s' ∧
    ∃ h ∈ s'.held, s.receipts ≤ h.receipt ∧ s'.idOf h.message = id

/-- An event leaves a request alone: the request is delivered to nobody, and no iteration begins
on it. -/
def Occurrence.LeavesAlone (q : Nat) (id : String) (o : Occurrence) : Prop :=
  ¬ o.Delivers q id ∧ ∀ x, o.begun? = some x → ¬ x.IsOn q id

/-- What may happen: anything at all, but nobody else deletes requests, and a request that is
handed to a consumer is still in its store. -/
def OnlyPending (q r : Nat) (w : World) (event : Event) : Prop :=
  OnlyServed q r w event ∧ ∀ post handle d, event = .assign post handle d → handle.store = q →
    ∀ s, w.plant.stores[q]? = some s → ∃ content, s.Has d.id content

theorem OnlyPending.joinsIdle {q r : Nat} {w : World} {event : Event}
    (allowed : OnlyPending q r w event) : event.JoinsIdle := by
  cases event with
  | join party =>
    intro a ha
    have hmay := allowed.1 a ha
    cases a with
    | consumer c =>
      obtain ⟨⟨post, repeats, rfl⟩, -⟩ := hmay
      rfl
    | _ => rfl
  | _ => trivial

/-! ### Requests that are gone -/

/-- What the record shows about deletions:

- `gone`: a request that has been deleted is gone from its store;
- `once`: no request has been deleted twice;
- `alone`: a request is left alone after its deletion;
- `accepted`: the store of the responses has accepted what an iteration has sent. -/
structure Sealed (q r : Nat) (past : List Occurrence) (s : Store) : Prop where
  gone : ∀ x ∈ deleted past, x.handle.store = q → s.Gone x.delivery.id
  once : ∀ id, (deleted past).countP (Iteration.IsOn q id) ≤ 1
  alone : past.Pairwise fun later earlier =>
    ∀ x, earlier.deleted? = some x → x.handle.store = q → later.LeavesAlone q x.delivery.id
  accepted : ∀ o ∈ past, ∀ x, o.sent? = some x → x.handle.store = q →
    ∃ id text, o.Accepts r id text

section
variable {q r : Nat} {past : List Occurrence} {w w' : World} {event : Event} {s s' : Store}
  {x : Iteration}

/-- A consumer that has settled a command works on a genuine delivery, and sends its responses
where they belong. -/
theorem Delivered.of_settled (i : Delivered q r past w s) (happens : w.step event = some w')
    {command : Work.Command} {result : Except Queue.Failure Reply}
    (hs : (⟨w, event, w'⟩ : Occurrence).settled? = some (x, command, result))
    (hstore : x.handle.store = q) :
    x.post.responses.store = r ∧ s.Genuine x.delivery ∧ ∃ call move p₁,
      call.handle = (Consumer.callOf x.post x.handle x.delivery command).handle ∧
      call.request = (Consumer.callOf x.post x.handle x.delivery command).request ∧
      w.plant.stepCall false call move = some (p₁, .ended result) ∧
      w'.plant.stores = p₁.stores := by
  have shape : ∀ a ∈ w.agents, a.InShape := by
    intro a ha
    have hbacked := i.backed a ha
    cases a with
    | consumer c => exact hbacked.inShape
    | _ => trivial
  obtain ⟨c, job, call, move, p₁, hc, -, hpost, doing, -, -, hhandle, hrequest, made, hstores⟩ :=
    World.step_settled happens shape hs
  have hbacked : c.Backed q r past s := i.backed _ hc
  obtain ⟨hresponses, hgenuine, -⟩ := hbacked.working _ _ _ _ doing hstore
  exact ⟨hpost ▸ hresponses, hgenuine, call, move, p₁, hhandle, hrequest, made, hstores⟩

/-- A request that is gone is left alone. -/
theorem Delivered.leavesAlone (i : Delivered q r past w s) (allowed : OnlyPending q r w event)
    (happens : w.step event = some w') (hs' : w'.plant.stores[q]? = some s') {id : String}
    (before : s.Gone id) (after : s'.Gone id) :
    (⟨w, event, w'⟩ : Occurrence).LeavesAlone q id := by
  constructor
  · rintro ⟨s₀, s₁, -, hs₁, h, hh, -, hid⟩
    obtain rfl := Option.some.inj (hs₁.symm.trans hs')
    refine after.not_has h.message.content ⟨h.message, ?_, hid, rfl⟩
    exact List.mem_append_right _ (List.mem_map.mpr ⟨h, hh, rfl⟩)
  · rintro x hbegun ⟨hstore, hid⟩
    rcases World.step_begun happens hbegun with hevent |
      ⟨c, call, canceled, move, p₁, rest, hc, hpost, hhandle, doing, came, hstores⟩
    · -- What is handed over is still there.
      obtain ⟨content, hhas⟩ := allowed.2 _ _ _ hevent hstore s i.stored
      exact before.not_has content (hid ▸ hhas)
    · -- What has just been received is there as well.
      have hbacked : c.Backed q r past s := i.backed _ hc
      have herrand := hbacked.inShape.errand (by rw [Consumer.call?, doing])
        (by rw [Consumer.duty?, doing])
      have hcall : call.handle.store = q := by
        rw [herrand.1]
        show c.post.requests.store = q
        rw [← hhandle]
        exact hstore
      obtain ⟨s₀, s₁, hs₀, rfl, st⟩ := Plant.stepCall_succeeded came
      have hs₁ := Plant.stores_withStore hs₀ s₁
      rw [← hstores, hcall] at hs₁
      obtain rfl := Option.some.inj (hs₁.symm.trans hs')
      obtain ⟨-, -, h, hh, -, hsame, -⟩ := st.batch List.mem_cons_self
      refine after.not_has h.message.content ⟨h.message, ?_, hsame.trans hid, rfl⟩
      exact List.mem_append_right _ (List.mem_map.mpr ⟨h, hh, rfl⟩)

/-- A deletion of a request on record makes the request go that was there. -/
theorem Delivered.gone_of_deleted (i : Delivered q r past w s) (happens : w.step event = some w')
    (hs' : w'.plant.stores[q]? = some s')
    (hdeleted : (⟨w, event, w'⟩ : Occurrence).deleted? = some x) (hstore : x.handle.store = q) :
    ¬ s.Gone x.delivery.id ∧ s'.Gone x.delivery.id := by
  obtain ⟨reply, hsettled⟩ := Occurrence.deleted?_eq_some.mp hdeleted
  obtain ⟨-, hgenuine, call, move, p₁, hhandle, hrequest, made, hstores⟩ :=
    i.of_settled happens hsettled hstore
  have hcall : call.handle.store = q := hhandle ▸ hstore
  obtain ⟨s₀, s₁, hs₀, rfl, st⟩ := Plant.stepCall_succeeded made
  have hs₁ := Plant.stores_withStore hs₀ s₁
  rw [hcall] at hs₀
  rw [← hstores, hcall] at hs₁
  obtain rfl := Option.some.inj (hs₀.symm.trans i.stored)
  obtain rfl := Option.some.inj (hs₁.symm.trans hs')
  rw [hrequest] at st
  exact st.gone_of_delete i.orderly hgenuine

/-- Every event keeps the record of deletions true. -/
theorem Sealed.step (a : Sealed q r past s) (i : Delivered q r past w s)
    (ko : w.plant.KeepersOrderly) (allowed : OnlyPending q r w event)
    (happens : w.step event = some w') (hs' : w'.plant.stores[q]? = some s') :
    Sealed q r (⟨w, event, w'⟩ :: past) s' := by
  have hgone : ∀ {id}, s.Gone id → s'.Gone id := by
    intro id g
    obtain ⟨s₁, hs₁, hcase⟩ := World.step_touched ko happens q s i.stored
    obtain rfl := Option.some.inj (hs₁.symm.trans hs')
    rcases hcase with rfl | ⟨deed, outcome, -, st⟩
    · exact g
    · exact st.gone i.orderly g
  refine ⟨?_, fun id => ?_, List.pairwise_cons.mpr ⟨?_, a.alone⟩, List.forall_mem_cons.mpr
    ⟨?_, a.accepted⟩⟩
  · rw [deleted_cons]
    intro x hx hstore
    rcases List.mem_append.mp hx with hx | hx
    · exact (i.gone_of_deleted happens hs' (Option.mem_toList.mp hx) hstore).2
    · exact hgone (a.gone x hx hstore)
  · rw [deleted_cons, List.countP_append]
    cases hdeleted : (⟨w, event, w'⟩ : Occurrence).deleted? with
    | none => simpa using a.once id
    | some x =>
      by_cases hon : x.IsOn q id
      · -- It was not gone before, so nobody has deleted it yet.
        have hnew : (deleted past).countP (Iteration.IsOn q id) = 0 := by
          refine List.countP_eq_zero.mpr fun y hy hyon => ?_
          obtain ⟨hystore, hyid⟩ := of_decide_eq_true hyon
          refine (i.gone_of_deleted happens hs' hdeleted hon.1).1 ?_
          rw [hon.2, ← hyid]
          exact a.gone y hy hystore
        rw [hnew]
        exact List.countP_le_length
      · simpa [hon] using a.once id
  · intro earlier hearlier x hdeleted hstore
    have hx : x ∈ deleted past := List.mem_filterMap.mpr ⟨earlier, hearlier, hdeleted⟩
    exact i.leavesAlone allowed happens hs' (a.gone x hx hstore) (hgone (a.gone x hx hstore))
  · intro x hsent hstore
    obtain ⟨text, reply, hsettled⟩ := Occurrence.sent?_eq_some.mp hsent
    obtain ⟨hresponses, -, call, move, p₁, hhandle, hrequest, made, hstores⟩ :=
      i.of_settled happens hsettled hstore
    obtain ⟨id, haccepts⟩ :=
      accepts_of_call (o := ⟨w, event, w'⟩) made hrequest rfl hstores
    have hcall : call.handle.store = r := hhandle ▸ hresponses
    exact ⟨id, text, hcall ▸ haccepts⟩

/-- The record of deletions is true in every run. -/
theorem Run.exists_sealed {stores : List Store} {name : String} {lease : Nat}
    (hq : stores[q]? = some (.empty name lease)) (run : Run stores (OnlyPending q r) past w) :
    ∃ s, Delivered q r past w s ∧ Sealed q r past s := by
  induction run with
  | start =>
    refine ⟨_, ⟨hq, .empty name lease, List.forall_mem_nil _, List.forall_mem_nil _⟩, ?_⟩
    exact ⟨List.forall_mem_nil _, fun _ => Nat.zero_le _, .nil, List.forall_mem_nil _⟩
  | step event before allowed happens ih =>
    obtain ⟨s, i, a⟩ := ih
    obtain ⟨s', i'⟩ := i.step before.keepersOrderly allowed.1 happens
    exact ⟨s', i', a.step i before.keepersOrderly allowed happens i'.stored⟩

end

/-! ### How often a request is answered -/

/-- How often a request is answered:

- `accepted`: whatever an iteration on it sends has been accepted by the store of the responses;
- `sends`: the responses are as many as the iterations on it that have sent one;
- `once`: each of them sends one response at most;
- `deletes`, `deleted_sent`: at most one of them deletes the request;
- `alone`: the request is left alone afterwards;
- `undone`: the others have failed to delete it, have been dropped, or still go on. -/
structure Bounded (q r : Nat) (id : String) (past : List Occurrence) (w : World) : Prop where
  accepted : ∀ o ∈ past, ∀ x, o.sent? = some x → x.IsOn q id → ∃ id' text, o.Accepts r id' text
  sends : (sent past).countP (Iteration.IsOn q id)
    = ((begun past).filter (· ∈ sent past)).countP (Iteration.IsOn q id)
  once : ∀ x, (sent past).count x ≤ 1
  deletes : (deleted past).countP (Iteration.IsOn q id) ≤ 1
  deleted_sent : ∀ x ∈ deleted past, x ∈ sent past
  alone : past.Pairwise fun later earlier =>
    ∀ x, earlier.deleted? = some x → x.IsOn q id → later.LeavesAlone q id
  undone : ∀ x ∈ sent past, x.IsOn q id → x ∉ deleted past → Undone past w x

section
variable {q r : Nat} {past : List Occurrence} {w : World} {x : Iteration}

/-- The iterations that have sent a response, in the order in which they began. -/
theorem Recorded.sent_perm (recorded : Recorded past w) :
    (sent past).Perm ((begun past).filter (· ∈ sent past)) := by
  refine (List.perm_ext_iff_of_nodup recorded.sent_nodup
    (recorded.begun_nodup.of_map.filter _)).mpr fun x => ?_
  rw [List.mem_filter, decide_eq_true_iff]
  exact ⟨fun hx => ⟨recorded.sent_begun x hx, hx⟩, And.right⟩

/-- Bounded duplication: more than one response to a request comes only from iterations that
could not delete it, were dropped, or are not over. -/
theorem Run.bounded {stores : List Store} {name : String} {lease : Nat}
    (hq : stores[q]? = some (.empty name lease)) (run : Run stores (OnlyPending q r) past w)
    (id : String) : Bounded q r id past w := by
  obtain ⟨s, -, a⟩ := run.exists_sealed hq
  have recorded := run.recorded fun _ _ => OnlyPending.joinsIdle
  exact
    { accepted := fun o ho x hx hon => a.accepted o ho x hx hon.1
      sends := recorded.sent_perm.countP_eq _
      once := List.nodup_iff_count_le_one.mp recorded.sent_nodup
      deletes := a.once id
      deleted_sent := recorded.deleted_sent
      alone := a.alone.imp fun h x hx hon => hon.2 ▸ h x hx hon.1
      undone := fun x hx _ hnot => recorded.undone x hx hnot }

end

/-- A request is answered, but its lease runs out before the response is sent. Another consumer
takes the request. Both send their responses, the second one deletes the request, and the first
one cannot. -/
def lostLease : List Event :=
  [.move 1 (.consumer (.call .go)), .move 2 (.consumer (.call .go)),
    .move 2 (.consumer (.call .go)), .move 2 (.consumer .settle), .keeper 1,
    .move 2 (.consumer (.answer (.ok "c"))), .move 1 (.consumer (.call .go)),
    .move 2 (.consumer (.call .go)),
    .join ⟨false, .consumer (.waiting ⟨⟨0, .none⟩, ⟨1, .none⟩, 0, 6000000⟩ false)⟩, .advance 9,
    .move 1 (.consumer .settle), .keeper 0, .move 1 (.consumer (.answer (.ok "b"))),
    .move 1 (.consumer (.call .go)),
    .join ⟨false, .consumer (.waiting ⟨⟨0, .none⟩, ⟨1, .none⟩, 0, 6000000⟩ false)⟩,
    .move 0 (.call .go), .join ⟨false, .call (.start ⟨0, .none⟩ (.send "a"))⟩]

/-- Bounded duplication, for a request that is answered twice. -/
theorem bounded_lostLease :
    ∃ past w, (past, w) ∈ World.play [.empty "q" 8000000, .empty "r" 8000000] lostLease ∧
      (sent past).countP (Iteration.IsOn 0 "q-1") = 2 ∧ Bounded 0 1 "q-1" past w := by
  have hplayed : ∃ run ∈ World.play [.empty "q" 8000000, .empty "r" 8000000] lostLease,
      (sent run.1).countP (Iteration.IsOn 0 "q-1") = 2 := by decide
  obtain ⟨⟨past, w⟩, hplay, htwo⟩ := hplayed
  have hallowed : ∀ event ∈ lostLease, ∀ w, OnlyPending 0 1 w event := by
    simp [lostLease, OnlyPending, OnlyServed, Party.agents, Agent.MayJoin, Work.Post.Serves,
      Consumer.waiting, Call.start]
  have run : Run [.empty "q" 8000000, .empty "r" 8000000] (OnlyPending 0 1) past w := by
    refine Run.play hplay fun o ho => hallowed _ ?_ _
    rw [← World.map_event_play hplay]
    exact List.mem_map.mpr ⟨o, ho, rfl⟩
  exact ⟨past, w, hplay, htwo, run.bounded rfl "q-1"⟩

end Leasework
