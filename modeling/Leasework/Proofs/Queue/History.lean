import Leasework.Proofs.Queue.Stock

/-!
# `Leasework.Proofs.Queue.History`: the steps and the histories of a store

A store changes by *deeds*: an attempt of a request, a look from outside (which reclaims
expired leases), and an injection of faults. Calls that rest, block, are canceled or are
dropped do nothing to a store between their attempts, so any interleaving of calls is a
sequence of deeds for the store.

`Store.Step` says what a deed may come to, one constructor for each way it can end, with
everything that decided it. `step_perform` shows that these are all the ways. Later proofs
take the constructors apart and never unfold an operation.

A *history* is a run of a store from the empty one, at moments that never go back. Its
entries stand with the newest first. `handedOut`, `contentsSent` and `deletedVia` read off
an entry or a history what was delivered, sent and deleted, from the answers alone.

The table of leases is in no order, so the order in which leases that have run out come
back is not fixed. `Shuffled` says so: before every deed the held messages may be
rearranged. `History.shuffled` says that histories are among these runs, and everything
that holds in every run of a store is stated of `Shuffled`.
-/

set_option autoImplicit false

namespace Leasework.Queue

/-! ### Deeds -/

/-- What can be done to a store at a moment. -/
inductive Deed where
  /-- An attempt of a request. -/
  | attempt (request : Request)
  /-- A look from outside. -/
  | observe
  /-- An injection of faults. -/
  | inject (kind : FaultKind) (count : Nat)

/-- The kinds of faults that can hit a request, the first one first. -/
def Request.faults : Request → List FaultKind
  | .send _ => [.throttle, .send]
  | .take _ => [.throttle]
  | .renew _ => [.throttle, .renewal]
  | .giveBack _ => [.throttle]
  | .delete _ => [.throttle, .delete]

/-- The delivery through which a request is made. -/
def Request.delivery? : Request → Option Delivery
  | .send _ => none
  | .take _ => none
  | .renew d => some d
  | .giveBack d => some d
  | .delete d => some d

/-- The delivery that ends with a request: its message is given back or deleted. -/
def Request.closes? : Request → Option Delivery
  | .giveBack d => some d
  | .delete d => some d
  | _ => none

/-- The delivery that ends with a deed. -/
def Deed.closes? : Deed → Option Delivery
  | .attempt request => request.closes?
  | _ => none

/-- What ends with a request is the delivery through which it is made. -/
theorem Request.delivery?_of_closes? {request : Request} {d : Delivery}
    (h : request.closes? = some d) : request.delivery? = some d := by
  cases request with
  | giveBack d' => exact h
  | delete d' => exact h
  | _ => cases h

namespace Store

/-- Does a deed. Only an attempt has an outcome. -/
def perform (now : Nat) (s : Store) : Deed → Store × Option Outcome
  | .attempt request => (s.attempt now request).map id some
  | .observe => (s.reclaim now, none)
  | .inject kind count => (s.inject kind count, none)

/-- What a deed at a moment may come to. -/
inductive Step (now : Nat) (s : Store) : Deed → Store → Option Outcome → Prop
  /-- A fault hits the attempt. -/
  | faulted (request : Request) (kind : FaultKind) (hit : s.fault? request.faults = some kind) :
      Step now s (.attempt request) (s.useFault kind) (some (.answered (.error kind.failure)))
  /-- A message is sent. -/
  | sent (content : String) (safe : s.fault? (Request.send content).faults = none) :
      Step now s (.attempt (.send content)) (s.append content).signal
        (some (.answered (.ok .done)))
  /-- There is nothing to take. -/
  | bare (most : Nat) (safe : s.fault? (Request.take most).faults = none)
      (none_visible : (s.reclaim now).visible = []) :
      Step now s (.attempt (.take most)) (s.reclaim now)
        (some (.nothing (s.reclaim now).earliestExpiry?))
  /-- A batch is taken. -/
  | taken (most : Nat) (safe : s.fault? (Request.take most).faults = none)
      (some_visible : (s.reclaim now).batch most ≠ []) :
      Step now s (.attempt (.take most))
        (((s.reclaim now).withoutBatch most).handOver now ((s.reclaim now).batch most))
        (some (.answered (.ok (.batch (s.deliveriesOf ((s.reclaim now).batch most))))))
  /-- The lease through which the request is made has been lost. -/
  | lost (request : Request) (d : Delivery) (through : request.delivery? = some d)
      (safe : s.fault? request.faults = none)
      (not_held : (s.reclaim now).find? d.receipt = none) :
      Step now s (.attempt request) (s.reclaim now)
        (some (.answered (.error (.leaseLost d.id))))
  /-- A lease is renewed. -/
  | renewed (d : Delivery) (h : Held) (safe : s.fault? (Request.renew d).faults = none)
      (found : (s.reclaim now).find? d.receipt = some h) :
      Step now s (.attempt (.renew d)) ((s.reclaim now).afterRenewal now d.receipt)
        (some (.answered (.ok .done)))
  /-- A message is given back. -/
  | returned (d : Delivery) (h : Held) (safe : s.fault? (Request.giveBack d).faults = none)
      (found : (s.reclaim now).find? d.receipt = some h) :
      Step now s (.attempt (.giveBack d)) ((s.reclaim now).afterReturn h)
        (some (.answered (.ok .done)))
  /-- A message is deleted. -/
  | deleted (d : Delivery) (h : Held) (safe : s.fault? (Request.delete d).faults = none)
      (found : (s.reclaim now).find? d.receipt = some h) :
      Step now s (.attempt (.delete d)) ((s.reclaim now).afterDeletion d.receipt)
        (some (.answered (.ok .done)))
  /-- Somebody looks at the store. -/
  | observed : Step now s .observe (s.reclaim now) none
  /-- Faults are injected. -/
  | injected (kind : FaultKind) (count : Nat) :
      Step now s (.inject kind count) (s.inject kind count) none

/-- An attempt is hit by a fault, or it is made. -/
theorem guarded_cases {α : Type} (s : Store) (kinds : List FaultKind)
    (operation : Store → Store × Except Failure α) :
    (∃ kind, s.fault? kinds = some kind ∧
        s.guarded kinds operation = (s.useFault kind, .error kind.failure)) ∨
      (s.fault? kinds = none ∧ s.guarded kinds operation = operation s) := by
  unfold guarded
  cases hf : s.fault? kinds with
  | some kind => exact Or.inl ⟨kind, rfl, rfl⟩
  | none => exact Or.inr ⟨rfl, rfl⟩

/-- An operation on a lease finds its message, or the lease has been lost. -/
theorem leased_cases (now : Nat) (d : Delivery) (operation : Store → Held → Store) (s : Store) :
    (∃ h, (s.reclaim now).find? d.receipt = some h ∧
        leased now d operation s = (operation (s.reclaim now) h, .ok ())) ∨
      ((s.reclaim now).find? d.receipt = none ∧
        leased now d operation s = (s.reclaim now, .error (.leaseLost d.id))) := by
  unfold leased
  cases hf : (s.reclaim now).find? d.receipt with
  | some h => exact Or.inl ⟨h, rfl, by simp only [hf]⟩
  | none => exact Or.inr ⟨rfl, by simp only [hf]⟩

/-- An attempt on a lease is hit by a fault, or it finds its message, or the lease has been
lost. -/
theorem guarded_leased_cases (now : Nat) (d : Delivery) (kinds : List FaultKind)
    (operation : Store → Held → Store) (s : Store) :
    (∃ kind, s.fault? kinds = some kind ∧
        s.guarded kinds (leased now d operation) = (s.useFault kind, .error kind.failure)) ∨
      (∃ h, s.fault? kinds = none ∧ (s.reclaim now).find? d.receipt = some h ∧
        s.guarded kinds (leased now d operation) = (operation (s.reclaim now) h, .ok ())) ∨
      (s.fault? kinds = none ∧ (s.reclaim now).find? d.receipt = none ∧
        s.guarded kinds (leased now d operation)
          = (s.reclaim now, .error (.leaseLost d.id))) := by
  rcases guarded_cases s kinds (leased now d operation) with ⟨kind, hf, he⟩ | ⟨hf, he⟩
  · exact Or.inl ⟨kind, hf, he⟩
  · rw [he]
    rcases leased_cases now d operation s with ⟨h, hfound, hl⟩ | ⟨hnone, hl⟩
    · exact Or.inr (Or.inl ⟨h, hf, hfound, hl⟩)
    · exact Or.inr (Or.inr ⟨hf, hnone, hl⟩)

/-- An attempt to take messages is throttled, or looks for visible ones. -/
theorem take_cases (most now : Nat) (s : Store) :
    (∃ kind, s.fault? [.throttle] = some kind ∧
        s.take most now = (s.useFault kind, .error kind.failure)) ∨
      (s.fault? [.throttle] = none ∧
        s.take most now = ((s.takeVisible most now).1, .ok (s.takeVisible most now).2)) :=
  guarded_cases s [.throttle] fun s => ((s.takeVisible most now).1, .ok (s.takeVisible most now).2)

/-- An attempt to take messages gets the batch, or there is none. -/
theorem takeVisible_eq (most now : Nat) (s : Store) :
    s.takeVisible (atLeastOne most) now
      = if (s.reclaim now).batch most = [] then (s.reclaim now, none)
        else (((s.reclaim now).withoutBatch most).handOver now ((s.reclaim now).batch most),
          some (s.deliveriesOf ((s.reclaim now).batch most))) := by
  have hbatch : (s.reclaim now).visible.take (atLeastOne most) = (s.reclaim now).batch most := rfl
  unfold takeVisible
  simp only [hbatch]
  split
  · rename_i hnil
    rw [if_pos hnil]
  · rename_i hne
    rw [if_neg hne, deliverAll_eq]
    rfl

/-- No batch means that nothing is visible: every receiver asks for a message at least. -/
theorem batch_eq_nil {most : Nat} {s : Store} : s.batch most = [] ↔ s.visible = [] := by
  unfold batch atLeastOne
  rw [List.take_eq_nil_iff]
  constructor
  · intro h
    rcases h with h | h
    · omega
    · exact h
  · exact Or.inr

/-- The steps of a store are all that a deed can come to. -/
theorem step_perform (now : Nat) (s : Store) (deed : Deed) :
    Step now s deed (s.perform now deed).1 (s.perform now deed).2 := by
  cases deed with
  | observe => exact .observed
  | inject kind count => exact .injected kind count
  | attempt request =>
    cases request with
    | send content =>
      rcases guarded_cases s [.throttle, .send]
        (fun s => ((s.append content).signal, .ok ())) with ⟨kind, hf, he⟩ | ⟨hf, he⟩
      · simp only [perform, attempt, send, he]
        exact .faulted (.send content) kind hf
      · simp only [perform, attempt, send, he]
        exact .sent content hf
    | take most =>
      rcases take_cases (atLeastOne most) now s with ⟨kind, hf, he⟩ | ⟨hf, he⟩
      · simp only [perform, attempt, he]
        exact .faulted (.take most) kind hf
      · simp only [perform, attempt, he, takeVisible_eq]
        by_cases hb : (s.reclaim now).batch most = []
        · simp only [if_pos hb]
          exact .bare most hf (batch_eq_nil.mp hb)
        · simp only [if_neg hb]
          exact .taken most hf hb
    | renew d =>
      simp only [perform, attempt, renew]
      rcases guarded_leased_cases now d [.throttle, .renewal] _ s with
        ⟨kind, hf, he⟩ | ⟨h, hf, hfound, he⟩ | ⟨hf, hnone, he⟩
      · rw [he]
        exact .faulted (.renew d) kind hf
      · rw [he]
        exact .renewed d h hf hfound
      · rw [he]
        exact .lost (.renew d) d rfl hf hnone
    | giveBack d =>
      simp only [perform, attempt, giveBack]
      rcases guarded_leased_cases now d [.throttle] _ s with
        ⟨kind, hf, he⟩ | ⟨h, hf, hfound, he⟩ | ⟨hf, hnone, he⟩
      · rw [he]
        exact .faulted (.giveBack d) kind hf
      · -- The step names the receipt of what is held, the operation that of the delivery.
        rw [he, ← (mem_of_find? hfound).2]
        exact .returned d h hf hfound
      · rw [he]
        exact .lost (.giveBack d) d rfl hf hnone
    | delete d =>
      simp only [perform, attempt, delete]
      rcases guarded_leased_cases now d [.throttle, .delete] _ s with
        ⟨kind, hf, he⟩ | ⟨h, hf, hfound, he⟩ | ⟨hf, hnone, he⟩
      · rw [he]
        exact .faulted (.delete d) kind hf
      · rw [he]
        exact .deleted d h hf hfound
      · rw [he]
        exact .lost (.delete d) d rfl hf hnone

/-- A step keeps the name and the lease of a store. -/
theorem Step.name_lease {now : Nat} {s s' : Store} {deed : Deed} {outcome : Option Outcome}
    (st : Step now s deed s' outcome) : s'.name = s.name ∧ s'.lease = s.lease := by
  cases st <;> exact ⟨rfl, rfl⟩

end Store

/-! ### Histories -/

/-- A deed on record: when it was done, and what came of it. -/
structure Entry where
  /-- When it was done. -/
  now : Nat
  /-- What was done. -/
  deed : Deed
  /-- What came of it; only an attempt has an outcome. -/
  outcome : Option Outcome

namespace Entry

/-- The request of an attempt that succeeded. -/
def carriedOut? (e : Entry) : Option Request :=
  match e.deed, e.outcome with
  | .attempt request, some (.answered (.ok _)) => some request
  | _, _ => none

/-- The deliveries that were handed out. -/
def handedOut (e : Entry) : List Delivery :=
  match e.outcome with
  | some (.answered (.ok (.batch deliveries))) => deliveries
  | _ => []

/-- The content that was sent. -/
def sent? (e : Entry) : Option String :=
  match e.carriedOut? with
  | some (.send content) => some content
  | _ => none

/-- The delivery whose message was deleted. -/
def deletedVia? (e : Entry) : Option Delivery :=
  match e.carriedOut? with
  | some (.delete d) => some d
  | _ => none

/-- The delivery whose message was given back or deleted. -/
def closedVia? (e : Entry) : Option Delivery :=
  match e.carriedOut? with
  | some (.giveBack d) => some d
  | some (.delete d) => some d
  | _ => none

/-- Whether the lease of a receipt begins, or begins anew. -/
def refreshes (receipt : Nat) (e : Entry) : Bool :=
  match e.carriedOut? with
  | some (.renew d) => d.receipt = receipt
  | _ => e.handedOut.any fun d => d.receipt = receipt

end Entry

/-- What a history has handed out. -/
def handedOut (past : List Entry) : List Delivery := past.flatMap Entry.handedOut

/-- The newest entry hands out first. -/
theorem handedOut_cons (e : Entry) (past : List Entry) :
    handedOut (e :: past) = e.handedOut ++ handedOut past := List.flatMap_cons

/-- The contents that were sent, the first one first. -/
def contentsSent (past : List Entry) : List String := (past.filterMap Entry.sent?).reverse

/-- The deliveries whose messages were deleted. -/
def deletedVia (past : List Entry) : List Delivery := past.filterMap Entry.deletedVia?

/-- The deliveries whose messages were given back or deleted. -/
def closedVia (past : List Entry) : List Delivery := past.filterMap Entry.closedVia?

/-- The runs of a store that was empty at first. The newest entry stands first, and time
never goes back. -/
inductive History (name : String) (lease : Nat) : List Entry → Store → Prop
  /-- Nothing has been done. -/
  | start : History name lease [] (.empty name lease)
  /-- One more deed. -/
  | step {past : List Entry} {s : Store} (now : Nat) (deed : Deed)
      (before : History name lease past s) (later : ∀ e ∈ past, e.now ≤ now) :
      History name lease (⟨now, deed, (s.perform now deed).2⟩ :: past) (s.perform now deed).1

/-- Does deeds at their moments, the last one in the list first. -/
def Store.replay (name : String) (lease : Nat) : List (Nat × Deed) → List Entry × Store
  | [] => ([], .empty name lease)
  | (now, deed) :: earlier =>
    let (past, s) := replay name lease earlier
    (⟨now, deed, (s.perform now deed).2⟩ :: past, (s.perform now deed).1)

/-- What is on record after deeds have been done: their moments. -/
theorem Store.map_now_replay (name : String) (lease : Nat) (deeds : List (Nat × Deed)) :
    (Store.replay name lease deeds).1.map Entry.now = deeds.map Prod.fst := by
  induction deeds with
  | nil => rfl
  | cons d earlier ih => exact congrArg (d.1 :: ·) ih

namespace History
variable {name : String} {lease : Nat} {past : List Entry} {s : Store}

/-- Whatever deeds are done at moments that do not go back make a history. -/
theorem replay (name : String) (lease : Nat) (deeds : List (Nat × Deed))
    (h : (deeds.map Prod.fst).Pairwise (· ≥ ·)) :
    History name lease (Store.replay name lease deeds).1 (Store.replay name lease deeds).2 := by
  induction deeds with
  | nil => exact .start
  | cons d earlier ih =>
    rw [List.map_cons, List.pairwise_cons] at h
    refine .step d.1 d.2 (ih h.2) fun e he => h.1 e.now ?_
    rw [← Store.map_now_replay name lease earlier]
    exact List.mem_map.mpr ⟨e, he, rfl⟩

end History

/-! ### Leases in no order -/

/-- The runs of a store that was empty at first and keeps its leases in no order: they may be
rearranged before every deed. -/
inductive Shuffled (name : String) (lease : Nat) : List Entry → Store → Prop
  /-- Nothing has been done. -/
  | start : Shuffled name lease [] (.empty name lease)
  /-- The leases are rearranged, and one more deed is done. -/
  | step {past : List Entry} {s : Store} {held : List Held} (now : Nat) (deed : Deed)
      (before : Shuffled name lease past s) (same : held.Perm s.held)
      (later : ∀ e ∈ past, e.now ≤ now) :
      Shuffled name lease (⟨now, deed, ((s.withHeld held).perform now deed).2⟩ :: past)
        ((s.withHeld held).perform now deed).1

section
variable {name : String} {lease : Nat} {past : List Entry} {s : Store}

/-- A history is a run in which the leases stay in their order. -/
theorem History.shuffled (h : History name lease past s) : Shuffled name lease past s := by
  induction h with
  | start => exact .start
  | step now deed _ later ih => exact .step now deed ih (.refl _) later

namespace Shuffled

/-- The last deed of a run is a step of the store, with its leases in some order. -/
theorem last {e : Entry} (h : Shuffled name lease (e :: past) s) :
    ∃ s₀ held, Shuffled name lease past s₀ ∧ held.Perm s₀.held ∧ (∀ e' ∈ past, e'.now ≤ e.now) ∧
      Store.Step e.now (s₀.withHeld held) e.deed s e.outcome := by
  cases h with
  | step now deed before same later =>
    exact ⟨_, _, before, same, later, Store.step_perform now _ deed⟩

/-- Induction over a run whose deeds are given as steps. -/
@[elab_as_elim]
theorem steps {motive : (past : List Entry) → (s : Store) → Shuffled name lease past s → Prop}
    (start : motive [] (.empty name lease) .start)
    (step : ∀ {past : List Entry} {s s' : Store} {held : List Held} {now : Nat} {deed : Deed}
      {outcome : Option Outcome} (before : Shuffled name lease past s)
      (after : Shuffled name lease (⟨now, deed, outcome⟩ :: past) s'), held.Perm s.held →
      (∀ e ∈ past, e.now ≤ now) → Store.Step now (s.withHeld held) deed s' outcome →
      motive past s before → motive (⟨now, deed, outcome⟩ :: past) s' after)
    (h : Shuffled name lease past s) : motive past s h := by
  induction h with
  | start => exact start
  | step now deed before same later ih =>
    exact step before (.step now deed before same later) same later
      (Store.step_perform now _ deed) ih

/-- A store keeps its name and its lease. -/
theorem name_lease (h : Shuffled name lease past s) : s.name = name ∧ s.lease = lease := by
  induction h using steps with
  | start => exact ⟨rfl, rfl⟩
  | step _ _ _ _ st ih => exact ⟨st.name_lease.1.trans ih.1, st.name_lease.2.trans ih.2⟩

end Shuffled

end

end Leasework.Queue
