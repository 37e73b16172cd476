import Leasework.Proofs.Queue.Orderly

/-!
# `Leasework.Proofs.Queue.Calls`: the steps of a call

`Call.Step` says what one step of a call may come to: it notices its cancellation, or it
attempts its request once and goes on or is over. `Call.step_cases` shows that there is
nothing else, so a call changes its store by the deeds of `History` alone.

`Store.Step.batch` and `Genuine` are about what a call brings home. A delivery is *genuine*
as long as the store does not contradict it: its receipt has been handed out, and what is
held under the receipt is the message that it names. No step of a store ever makes a genuine
delivery false.
-/

set_option autoImplicit false

namespace Leasework.Queue

/-! ### What a batch says -/

section
variable {now : Nat} {s s' : Store} {deed : Deed} {outcome : Option Outcome}

/-- A step takes no receipt back. -/
theorem Store.Step.receipts_le (st : Store.Step now s deed s' outcome) :
    s.receipts ≤ s'.receipts := by
  cases st with
  | taken => exact Nat.le_add_right _ _
  | _ => exact Nat.le_refl _

/-- A delivery of a batch has a new receipt, and its message is held for a whole lease. -/
theorem Store.Step.batch {ds : List Delivery} {d : Delivery}
    (st : Store.Step now s deed s' (some (.answered (.ok (.batch ds))))) (hd : d ∈ ds) :
    s.receipts ≤ d.receipt ∧ d.receipt < s'.receipts ∧
      ∃ h ∈ s'.held, h.receipt = d.receipt ∧ s'.idOf h.message = d.id ∧
        h.message.content = d.content ∧ h.expiry = now + s'.lease := by
  cases st with
  | taken most =>
    obtain ⟨h, hh, hr, hid, hcontent⟩ := Store.mem_deliveriesOf now hd
    obtain ⟨hge, hlt, hexpiry, -⟩ := Store.mem_leasesOf hh
    rw [hr] at hge hlt
    exact ⟨hge, hlt, h, List.mem_append_right _ hh, hr, hid, hcontent, hexpiry⟩

/-- A held message was held before under its receipt, or the receipt is new. -/
theorem Store.Step.held_back (st : Store.Step now s deed s' outcome) {h' : Held}
    (hh' : h' ∈ s'.held) :
    (∃ h ∈ s.held, h.receipt = h'.receipt ∧ h.message = h'.message) ∨
      s.receipts ≤ h'.receipt := by
  have hreclaim : ∀ {h'}, h' ∈ (s.reclaim now).held →
      ∃ h ∈ s.held, h.receipt = h'.receipt ∧ h.message = h'.message :=
    fun hh' => ⟨_, (Store.mem_held_reclaim.mp hh').1, rfl, rfl⟩
  cases st with
  | faulted => exact Or.inl ⟨h', hh', rfl, rfl⟩
  | injected => exact Or.inl ⟨h', hh', rfl, rfl⟩
  | sent => exact Or.inl ⟨h', hh', rfl, rfl⟩
  | bare => exact Or.inl (hreclaim hh')
  | observed => exact Or.inl (hreclaim hh')
  | lost => exact Or.inl (hreclaim hh')
  | taken =>
    rcases List.mem_append.mp hh' with hh' | hh'
    · exact Or.inl (hreclaim hh')
    · exact Or.inr (Store.mem_leasesOf hh').1
  | renewed =>
    obtain ⟨h, hh, rfl⟩ := Store.mem_held_setExpiry.mp hh'
    refine Or.inl ⟨h, (Store.mem_held_reclaim.mp hh).1, ?_⟩
    split <;> exact ⟨rfl, rfl⟩
  | returned => exact Or.inl (hreclaim (Store.mem_held_dropHeld.mp hh').1)
  | deleted => exact Or.inl (hreclaim (Store.mem_held_dropHeld.mp hh').1)

/-- A held message whose lease has not run out stays held, unless its delivery ends. The lease
lasts as long as before, or a whole lease from now on. -/
theorem Store.Step.held_on (st : Store.Step now s deed s' outcome) {h : Held} (hh : h ∈ s.held)
    (hlive : now < h.expiry) (hopen : ∀ d, deed.closes? = some d → d.receipt ≠ h.receipt) :
    ∃ h' ∈ s'.held, h'.receipt = h.receipt ∧ h'.message = h.message ∧
      (h'.expiry = h.expiry ∨ h'.expiry = now + s.lease) := by
  have hreclaim : h ∈ (s.reclaim now).held := Store.mem_held_reclaim.mpr ⟨hh, hlive⟩
  cases st with
  -- Whatever is reclaimed now, this lease is not.
  | faulted => exact ⟨h, hh, rfl, rfl, Or.inl rfl⟩
  | injected => exact ⟨h, hh, rfl, rfl, Or.inl rfl⟩
  | sent => exact ⟨h, hh, rfl, rfl, Or.inl rfl⟩
  | bare => exact ⟨h, hreclaim, rfl, rfl, Or.inl rfl⟩
  | observed => exact ⟨h, hreclaim, rfl, rfl, Or.inl rfl⟩
  | lost => exact ⟨h, hreclaim, rfl, rfl, Or.inl rfl⟩
  | taken => exact ⟨h, List.mem_append_left _ hreclaim, rfl, rfl, Or.inl rfl⟩
  | renewed d =>
    refine ⟨_, Store.mem_held_setExpiry.mpr ⟨h, hreclaim, rfl⟩, ?_⟩
    by_cases hr : h.receipt = d.receipt
    · rw [if_pos hr]
      exact ⟨rfl, rfl, Or.inr rfl⟩
    · rw [if_neg hr]
      exact ⟨rfl, rfl, Or.inl rfl⟩
  | returned d h₀ safe found =>
    refine ⟨h, Store.mem_held_dropHeld.mpr ⟨hreclaim, ?_⟩, rfl, rfl, Or.inl rfl⟩
    rw [(Store.mem_of_find? found).2]
    exact (hopen d rfl).symm
  | deleted d =>
    exact ⟨h, Store.mem_held_dropHeld.mpr ⟨hreclaim, (hopen d rfl).symm⟩, rfl, rfl, Or.inl rfl⟩

/-- A renewal that no fault hits, of a lease that has not run out, is carried out: the lease
lasts a whole lease from now on. -/
theorem Store.Step.renewed_on {d : Delivery} {outcome : Outcome}
    (st : Store.Step now s (.attempt (.renew d)) s' (some outcome))
    (safe : s.fault? (Request.renew d).faults = none) {h : Held} (hh : h ∈ s.held)
    (hr : h.receipt = d.receipt) (hlive : now < h.expiry) :
    outcome = .answered (.ok .done) ∧
      ∃ h' ∈ s'.held, h'.receipt = h.receipt ∧ h'.message = h.message ∧
        h'.expiry = now + s.lease := by
  have hreclaim : h ∈ (s.reclaim now).held := Store.mem_held_reclaim.mpr ⟨hh, hlive⟩
  cases st with
  | faulted _ _ hit =>
    rw [safe] at hit
    cases hit
  | lost _ d' through _ not_held =>
    cases through
    exact absurd hr (Store.find?_eq_none.mp not_held h hreclaim)
  | renewed =>
    refine ⟨rfl, _, Store.mem_held_setExpiry.mpr ⟨h, hreclaim, rfl⟩, ?_⟩
    rw [if_pos hr]
    exact ⟨rfl, rfl, rfl⟩

/-- What is delivered was not held: a lease that has not run out keeps its message. -/
theorem Store.Step.batch_apart {ds : List Delivery} {d : Delivery}
    (st : Store.Step now s deed s' (some (.answered (.ok (.batch ds))))) (o : Orderly s)
    (hd : d ∈ ds) {h : Held} (hh : h ∈ s.held) (hlive : now < h.expiry) :
    d.id ≠ s.idOf h.message := by
  intro hid
  obtain ⟨hnew, -, h₁, hh₁, hr₁, hid₁, -⟩ := st.batch hd
  have hopen : deed.closes? = none := by
    cases st
    rfl
  obtain ⟨h₂, hh₂, hr₂, hm₂, -⟩ := st.held_on hh hlive (by rw [hopen]; exact nofun)
  -- The message would be held twice, and its old receipt would be a new one.
  have hsame : h₁ = h₂ := by
    refine (o.step st).eq_of_id hh₁ hh₂ ?_
    rw [hid₁, hid, hm₂]
    unfold Store.idOf
    rw [st.name_lease.1]
  have hlt := o.receipts_lt h hh
  -- A receipt in use has been handed out before, and that of `d` has not.
  rw [← hsame, hr₁] at hr₂
  omega

/-- A store does not contradict a delivery: the receipt has been handed out, and the message
that is held under it is the one that the delivery names. -/
structure Store.Genuine (s : Store) (d : Delivery) : Prop where
  /-- The receipt has been handed out. -/
  receipt_lt : d.receipt < s.receipts
  /-- What is held under the receipt has this id and this content. -/
  held : ∀ h ∈ s.held, h.receipt = d.receipt →
    s.idOf h.message = d.id ∧ h.message.content = d.content

/-- A genuine delivery stays genuine. -/
theorem Store.Step.genuine (st : Store.Step now s deed s' outcome) {d : Delivery}
    (g : s.Genuine d) : s'.Genuine d := by
  refine ⟨Nat.lt_of_lt_of_le g.receipt_lt st.receipts_le, fun h' hh' hr => ?_⟩
  rcases st.held_back hh' with ⟨h, hh, hreceipt, hmessage⟩ | hnew
  · unfold Store.idOf
    rw [st.name_lease.1, ← hmessage]
    exact g.held h hh (hreceipt.trans hr)
  · have hlt := g.receipt_lt
    omega

/-- Distinct receipts: what a batch delivers is genuine. -/
theorem Store.Step.genuine_batch {ds : List Delivery} {d : Delivery}
    (st : Store.Step now s deed s' (some (.answered (.ok (.batch ds))))) (o : Orderly s')
    (hd : d ∈ ds) : s'.Genuine d := by
  obtain ⟨-, hlt, h, hh, hr, hid, hcontent, -⟩ := st.batch hd
  refine ⟨hlt, fun h' hh' hr' => ?_⟩
  have hsame := List.inj_on_of_nodup_map o.receipts_nodup hh' hh (hr'.trans hr.symm)
  rw [hsame]
  exact ⟨hid, hcontent⟩

end

/-! ### The steps of a call -/

namespace Call

/-- What a step of a call may come to, on the store that it goes to. -/
inductive Step (canceled : Bool) (now : Nat) (s : Store) (c : Call) : Store → Progress → Prop
  /-- The call notices its cancellation, and nothing is done. -/
  | quit (asked : canceled = true) : Step canceled now s c s (.ended (.error .canceled))
  /-- There is nothing to deliver, and the call waits. -/
  | blocked {s' : Store} {expiry : Option Nat}
      (st : Store.Step now s (.attempt c.request) s' (some (.nothing expiry))) :
      Step canceled now s c s' (.going { c with phase := .blocked s'.signals expiry })
  /-- The attempt was throttled, and the call rests before the next one. -/
  | throttled {s' : Store} {f : Failure}
      (st : Store.Step now s (.attempt c.request) s' (some (.answered (.error f))))
      (slow : f.isThrottling = true) :
      Step canceled now s c s'
        (.going { c with phase := .resting (now + c.handle.patience.backoff) })
  /-- The attempt settles the call. -/
  | settled {s' : Store} {result : Except Failure Reply}
      (st : Store.Step now s (.attempt c.request) s' (some (.answered result)))
      (last : c.handle.patience.triesAgain result = false) :
      Step canceled now s c s' (.ended result)

section
variable {canceled : Bool} {now : Nat} {s s' : Store} {c : Call} {progress : Progress}

/-- An attempt is a step of the call. -/
theorem attempt_step (canceled : Bool) (now : Nat) (s : Store) (c : Call) :
    Step canceled now s c (c.attempt now s).1 (c.attempt now s).2 := by
  have st : Store.Step now s (.attempt c.request) (s.attempt now c.request).1
      (some (s.attempt now c.request).2) := Store.step_perform now s (.attempt c.request)
  unfold attempt
  generalize s.attempt now c.request = result at st ⊢
  obtain ⟨s', outcome⟩ := result
  cases outcome with
  | nothing expiry => exact .blocked st
  | answered result =>
    by_cases hagain : c.handle.patience.triesAgain result = true
    · -- Only throttling is ever tried again.
      simp only [hagain, if_true]
      cases result with
      | ok reply => cases hagain
      | error f => exact .throttled st (Bool.and_eq_true_iff.mp hagain).2
    · simp only [hagain]
      exact .settled st (Bool.not_eq_true _ ▸ hagain)

/-- Whatever step a call makes, it is one of these. -/
theorem step_cases {move : CallMove} (h : c.step canceled now s move = some (s', progress)) :
    Step canceled now s c s' progress := by
  cases move with
  | quit =>
    simp only [step] at h
    split at h
    · rename_i hquit
      cases h
      -- A call that is resting or blocked can quit when it has been canceled.
      refine .quit ?_
      unfold canQuit at hquit
      split at hquit
      · cases hquit
      · exact hquit
    · cases h
  | go =>
    simp only [step] at h
    split at h
    · have hmade : ∀ {result}, some (c.attempt now s) = some result →
          Step canceled now s c result.1 result.2 := by
        intro result he
        cases he
        exact attempt_step canceled now s c
      split at h
      · exact hmade h
      · unfold attemptUnless at h
        split at h
        · rename_i hcanceled
          cases h
          exact .quit hcanceled
        · exact hmade h
    · cases h

/-- A step of a call leaves its store alone, or it is an attempt of the request. -/
theorem Step.store (st : Step canceled now s c s' progress) :
    s' = s ∨ ∃ outcome, Store.Step now s (.attempt c.request) s' (some outcome) := by
  cases st with
  | quit => exact Or.inl rfl
  | blocked st => exact Or.inr ⟨_, st⟩
  | throttled st => exact Or.inr ⟨_, st⟩
  | settled st => exact Or.inr ⟨_, st⟩

/-- What a call is about, wherever it has come to. -/
def errand (c : Call) : Handle × Request := (c.handle, c.request)

/-- A call that goes on asks for the same thing in the same place. -/
theorem Step.same {c' : Call} (st : Step canceled now s c s' (.going c')) :
    c'.handle = c.handle ∧ c'.request = c.request := by
  cases st <;> exact ⟨rfl, rfl⟩

/-- A call that succeeds has made its last attempt just now. -/
theorem Step.succeeded {reply : Reply} (st : Step canceled now s c s' (.ended (.ok reply))) :
    Store.Step now s (.attempt c.request) s' (some (.answered (.ok reply))) := by
  cases st with
  | settled st => exact st

/-- A renewal that no fault hits, of a lease that has not run out, takes one step. -/
theorem Step.renewed {d : Delivery} (st : Step false now s c s' progress)
    (hrequest : c.request = .renew d) (safe : s.fault? (Request.renew d).faults = none)
    {h : Held} (hh : h ∈ s.held) (hr : h.receipt = d.receipt) (hlive : now < h.expiry) :
    progress = .ended (.ok .done) ∧
      ∃ h' ∈ s'.held, h'.receipt = h.receipt ∧ h'.message = h.message ∧
        h'.expiry = now + s.lease := by
  cases st with
  | quit asked => cases asked
  | blocked st =>
    rw [hrequest] at st
    cases (st.renewed_on safe hh hr hlive).1
  | throttled st =>
    rw [hrequest] at st
    cases (st.renewed_on safe hh hr hlive).1
  | settled st =>
    rw [hrequest] at st
    obtain ⟨houtcome, hheld⟩ := st.renewed_on safe hh hr hlive
    cases houtcome
    exact ⟨rfl, hheld⟩

end

end Call

end Leasework.Queue
