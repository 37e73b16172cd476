import Leasework.Proofs.Lease.Endurance

/-!
# `Leasework.Proofs.Lease.Overflow`: how far renewals are counted

A counter of 32 bits shows what is counted as long as it fits (`Lease.Shows`), and nothing keeps a
keeper from renewing more often than that. A keeper whose period is shorter than the lease goes on
for ever: its `record` of `n` renewals repeats one round, in which the clock goes on by a period and
the keeper renews (`step_renew`). The keeper may be told to stop after any number of renewals
(`exists_stint`), and somebody may wait for its report (`exists_report`). So neither counters nor
reports are exact in every run.
-/

set_option autoImplicit false

namespace Leasework

open Queue (Call Delivery Message Store)

/-! ### A keeper that goes on for ever -/

namespace Tireless

/-- The way to the store of the message. -/
def handle : Queue.Handle := ⟨0, .none⟩

/-- The delivery whose lease is renewed. -/
def delivery : Delivery := (Store.empty "q" 0).deliveryOf ⟨1, "a", 0⟩

/-- Its message, once it has been delivered. -/
def message : Message := ⟨1, "a", 1⟩

/-- The call with which it is renewed. -/
def call : Call := .start handle (.renew delivery)

/-- The store when the lease has been renewed `n` times. -/
def store (lease n last : Nat) : Store :=
  { Store.empty "q" lease with
    held := [⟨0, message, last + lease⟩]
    numbered := 1
    receipts := 1
    tally := ⟨1, 1, 0, n, 0, 0⟩
    signals := 1 }

/-- The keeper when it has renewed `n` times. -/
def keeper (period n : Nat) (phase : Lease.KeeperPhase Call) : Lease.Keeper Call :=
  ⟨period, false, phase, .ofNat n, 0⟩

/-- The plant when the keeper has renewed `n` times, with its last and its next renewal. -/
def plant (lease period n now last due : Nat) : Plant where
  now := now
  stores := [store lease n last]
  boards := []
  keepers := [⟨0, handle, delivery, keeper period n (.waiting due), false⟩]
  numbered := 1

section
variable {lease period n now last due : Nat}

/-- The store renews the lease as long as it has not run out. -/
theorem renew_store (hlive : now < last + lease) :
    (store lease n last).renew now delivery = (store lease (n + 1) now, .ok ()) := by
  simp [store, delivery, Store.deliveryOf, Store.renew, Store.guarded, Store.fault?, Store.empty,
    Queue.Faults.count, Store.leased, Store.reclaim, Store.find?, Store.setExpiry, hlive,
    Nat.not_le.mpr hlive]

theorem stepCall_renew (hlive : due < last + lease) :
    (plant lease period n due last due).stepCall false call .go
      = some ({ plant lease period n due last due with stores := [store lease (n + 1) due] },
        .ended (.ok .done)) := by
  simp [plant, call, handle, Plant.stepCall, Call.start, Call.step, Call.canGo, Call.attemptUnless,
    Call.attempt, Store.attempt, renew_store hlive, Prod.map, Queue.Outcome.ofUnit,
    Queue.Patience.triesAgain]

/-- The keeper begins a renewal when it is due. -/
theorem begin?_keeper : (keeper period n (.waiting due)).begin? due call
    = some (keeper period n (.renewing (due + period) call)) := by
  have hearly : ¬ due + Lease.tolerance < due := Nat.not_lt.mpr (Nat.le_add_right _ _)
  simp [keeper, Lease.Keeper.begin?, Lease.nextDue, hearly]

/-- The keeper counts a renewal that has succeeded. -/
theorem finish_keeper : (keeper period n (.renewing due call)).finish true
    = keeper period (n + 1) (.waiting due) := by
  simp [keeper, Lease.Keeper.finish, UInt32.ofNat_add]

/-- So the keeper renews when a renewal is due. -/
theorem stepKeeper_renew (hlive : due < last + lease) :
    (plant lease period n due last due).stepKeeper 0
      = some (plant lease period (n + 1) due due (due + period)) := by
  show Option.bind ((keeper period n (.waiting due)).begin? due call) _ = _
  rw [begin?_keeper]
  -- The renewal is made at once: its call ends with the step that it begins with.
  show Plant.renew? _ _ (keeper period n (.renewing (due + period) call)) call = _
  have hafter : plant lease period (n + 1) due due (due + period)
      = { plant lease period n due last due with
          stores := [store lease (n + 1) due]
          keepers := [⟨0, handle, delivery,
            (keeper period n (.renewing (due + period) call)).finish true, false⟩] } := by
    rw [finish_keeper]
    rfl
  rw [Plant.renew?, stepCall_renew hlive, hafter]
  rfl

end

/-- The world when the keeper, whose period is `k` milliseconds, has renewed `n` times and the clock
shows `t` milliseconds. -/
def world (lease k n t : Nat) : World where
  plant := plant lease (k * nanosPerMilli) n (t * nanosPerMilli) (k * n * nanosPerMilli)
    (k * n * nanosPerMilli + k * nanosPerMilli)
  parties :=
    [⟨false, .called handle (.ok .done)⟩, ⟨false, .called handle (.ok (.batch [delivery]))⟩]

/-- What is on record of `n` renewals. -/
def record (lease k : Nat) : Nat → List Occurrence
  | 0 => []
  | n + 1 =>
    ⟨world lease k n (k * (n + 1)), .keeper 0, world lease k (n + 1) (k * (n + 1))⟩ ::
      ⟨world lease k n (k * n), .advance (k * (n + 1)), world lease k n (k * (n + 1))⟩ ::
      record lease k n

section
variable {lease k n t t' : Nat}

theorem next_due (k n : Nat) :
    k * (n + 1) * nanosPerMilli = k * n * nanosPerMilli + k * nanosPerMilli := by
  rw [Nat.mul_succ, Nat.add_mul]

theorem step_advance (h : t ≤ t') :
    (world lease k n t).step (.advance t') = some (world lease k n t') :=
  if_pos (Nat.mul_le_mul_right _ h)

theorem step_renew (hlease : k * nanosPerMilli < lease) :
    (world lease k n (k * (n + 1))).step (.keeper 0)
      = some (world lease k (n + 1) (k * (n + 1))) := by
  unfold world
  rw [World.step, next_due, stepKeeper_renew (Nat.add_lt_add_left hlease _)]
  rfl

/-- The renewal is on record. -/
theorem completion?_renew (hlease : k * nanosPerMilli < lease) (w : World) :
    (⟨world lease k n (k * (n + 1)), .keeper 0, w⟩ : Occurrence).completion? 0
      = some (.ok .done) := by
  obtain ⟨p, hmade⟩ : ∃ p, (world lease k n (k * (n + 1))).plant.stepCall false call .go
      = some (p, .ended (.ok .done)) := by
    unfold world
    rw [next_due]
    exact ⟨_, stepCall_renew (Nat.add_lt_add_left hlease _)⟩
  rw [Occurrence.completion?, Occurrence.renewal?, World.renewal?_of_call rfl rfl hmade]
  rfl

theorem renewalsMade_record (hlease : k * nanosPerMilli < lease) (n : Nat) :
    renewalsMade 0 (record lease k n) = n := by
  induction n with
  | zero => rfl
  | succ n ih =>
    rw [renewalsMade] at ih ⊢
    rw [record, countP_cons_toNat, completion?_renew hlease, countP_cons_toNat, ih]
    rfl

theorem leavesAlone_renew : (world lease k n t).LeavesAlone 0 0 0 (.keeper 0) := by
  refine ⟨⟨List.forall_mem_nil _, fun hne => absurd rfl hne⟩, fun _ s hs => ?_⟩
  obtain rfl := Option.some.inj hs
  rfl

theorem leavesAlone_advance (h : t' ≤ k * (n + 1)) :
    (world lease k n t).LeavesAlone 0 0 0 (.advance t') := by
  refine ⟨⟨List.forall_mem_nil _, trivial⟩, fun e he due hdue => ?_⟩
  obtain rfl := Option.some.inj he
  obtain rfl := Option.some.inj hdue
  rw [← next_due]
  unfold Rehearsal.Stage.ceilMillis nanosPerMilli
  omega

/-- Meanwhile nobody disturbs the keeper. -/
theorem leavesAlone_record (n : Nat) :
    ∀ o ∈ record lease k n, o.before.LeavesAlone 0 0 0 o.event := by
  induction n with
  | zero => exact List.forall_mem_nil _
  | succ n ih =>
    exact List.forall_mem_cons.mpr ⟨leavesAlone_renew,
      List.forall_mem_cons.mpr ⟨leavesAlone_advance (Nat.le_refl _), ih⟩⟩

/-! ### The beginning and the end -/

/-- A message is sent and delivered. -/
def delivering : List Event :=
  [.move 1 (.call .go), .join ⟨false, .call (.start handle (.take 1))⟩, .move 0 (.call .go),
    .join ⟨false, .call (.start handle (.send "a"))⟩]

/-- The world when it has been delivered. -/
def delivered (lease : Nat) : World where
  plant := { now := 0, stores := [store lease 0 0], boards := [], keepers := [], numbered := 0 }
  parties :=
    [⟨false, .called handle (.ok .done)⟩, ⟨false, .called handle (.ok (.batch [delivery]))⟩]

/-- The keeper starts. -/
def start (lease k : Nat) : Occurrence :=
  ⟨delivered lease, .keep handle delivery (k * nanosPerMilli), world lease k 0 0⟩

theorem period_ne_zero (hk : 0 < k) : k * nanosPerMilli ≠ 0 :=
  Nat.ne_of_gt (Nat.mul_pos hk (by decide))

theorem start_keeper (hk : 0 < k) : .start (k * nanosPerMilli) 0
    = keeper (k * nanosPerMilli) 0 (.waiting (k * 0 * nanosPerMilli + k * nanosPerMilli)) := by
  rw [Lease.Keeper.start, if_neg (period_ne_zero hk), Nat.mul_zero, Nat.zero_mul]
  rfl

theorem step_start (hk : 0 < k) :
    (delivered lease).step (start lease k).event = some (start lease k).after := by
  rw [start, world, plant, ← start_keeper hk, Nat.mul_zero, Nat.zero_mul]
  rfl

/-- A run in which the keeper renews `n` times. -/
theorem run_renewals (hk : 0 < k) (hlease : k * nanosPerMilli < lease) (n : Nat) : ∃ earlier,
    Run [.empty "q" lease] (fun _ event => event.JoinsIdle)
      (record lease k n ++ start lease k :: earlier) (world lease k n (k * n)) ∧
    renewalsMade 0 (start lease k :: earlier) = 0 := by
  obtain ⟨earlier, hplay⟩ : ∃ past,
      (past, delivered lease) ∈ World.play [.empty "q" lease] delivering := ⟨_, rfl⟩
  have hevents := World.map_event_play hplay
  have hevent : ∀ o ∈ earlier, o.event ∈ delivering := fun o ho =>
    hevents ▸ List.mem_map_of_mem ho
  have hidle : ∀ event ∈ delivering, event.JoinsIdle := by decide
  refine ⟨earlier, ?run, ?made⟩
  case run =>
    -- By induction on the number of renewals: each of them adds one round to the record.
    induction n with
    | zero =>
      exact (Run.play hplay fun o ho => hidle _ (hevent o ho)).step _ trivial (step_start hk)
    | succ n ih =>
      have hadvance : (world lease k n (k * n)).step (.advance (k * (n + 1)))
          = some (world lease k n (k * (n + 1))) :=
        step_advance (Nat.mul_le_mul_left k (Nat.le_succ n))
      exact .step (.keeper 0) (.step (.advance _) ih trivial hadvance) trivial (step_renew hlease)
  case made =>
    -- Before the start of the keeper there was no event of a keeper at all.
    refine List.countP_eq_zero.mpr (List.forall_mem_cons.mpr ⟨Bool.false_ne_true, fun o ho => ?_⟩)
    have hother : o.event ≠ .keeper 0 := by
      intro h
      have hmem := h ▸ hevent o ho
      simp [delivering] at hmem
    rw [Occurrence.completion?, Occurrence.renewal?, World.renewal?_of_ne hother]
    exact Bool.false_ne_true

/-- The world when the keeper has been told to stop. -/
def told (lease k n t : Nat) : World :=
  { world lease k n t with plant := (world lease k n t).plant.stopKeeper 0 }

/-- Renewals are due a whole number of periods after the start. -/
theorem due_eq (lease k j : Nat) :
    (start lease k).after.plant.now + (j + 1) * (k * nanosPerMilli)
      = k * (j + 1) * nanosPerMilli := by
  show 0 * nanosPerMilli + (j + 1) * (k * nanosPerMilli) = _
  rw [Nat.zero_mul, Nat.zero_add, ← Nat.mul_assoc, Nat.mul_comm (j + 1)]

/-- Its stint ends when it is told, between two renewals. -/
theorem stint (hk : 0 < k) (hafter : k * n < t) (hbefore : t < k * (n + 1)) :
    Stint 0 0 delivery message lease (k * nanosPerMilli)
      (⟨world lease k n (k * n), .advance t, world lease k n t⟩ :: record lease k n)
      (start lease k) ⟨world lease k n t, .stop 0, told lease k n t⟩ where
  takesUp :=
    ⟨⟨handle, rfl, congrArg (fun keeper => some (KeeperEntry.mk 0 handle delivery keeper false))
      (start_keeper hk).symm⟩, ⟨k, hk, rfl⟩, ⟨_, rfl, List.mem_cons_self⟩⟩
  undisturbed :=
    List.forall_mem_cons.mpr ⟨leavesAlone_advance (Nat.le_of_lt hbefore), leavesAlone_record n⟩
  free := ⟨_, rfl, rfl⟩
  told := by
    refine ⟨Nat.one_pos, fun keeper hkeeper => ?_⟩
    obtain rfl := Option.some.inj hkeeper
    rfl
  apart j hj := by
    -- Strictly between two multiples of the period there is no other one.
    rw [due_eq] at hj
    obtain rfl : t = k * (j + 1) := Nat.eq_of_mul_eq_mul_right (by decide) hj
    have hle := Nat.lt_of_mul_lt_mul_left hafter
    have hlt := Nat.lt_of_mul_lt_mul_left hbefore
    omega

/-- Its stint may end after any number of renewals. -/
theorem exists_stint (hk : 1 < k) (hlease : k * nanosPerMilli < lease) (n : Nat) :
    ∃ since earlier o x,
      Run [.empty "q" lease] (fun _ event => event.JoinsIdle) (x :: (since ++ o :: earlier))
        x.after ∧
      Stint 0 0 delivery message lease (k * nanosPerMilli) since o x ∧
      (∀ j, j < n ↔ o.after.plant.now + (j + 1) * (k * nanosPerMilli) < x.before.plant.now) ∧
      ∃ keeper ∈ x.after.plant.keeping? 0, keeper.renewed = .ofNat n ∧ keeper.failed = 0 := by
  obtain ⟨earlier, run, -⟩ := run_renewals (Nat.lt_of_succ_lt hk) hlease n
  have hbefore : k * n + 1 < k * (n + 1) := Nat.add_lt_add_left hk (k * n)
  have advanced : Run _ _ _ (world lease k n (k * n + 1)) :=
    .step (.advance _) run trivial (step_advance (Nat.le_succ _))
  have stopped : Run _ _ _ (told lease k n (k * n + 1)) := .step (.stop 0) advanced trivial rfl
  refine ⟨_, _, _, _, stopped, stint (Nat.lt_of_succ_lt hk) (Nat.lt_succ_self _) hbefore,
    fun j => ?_, _, rfl, rfl, rfl⟩
  rw [due_eq]
  show j < n ↔ k * (j + 1) * nanosPerMilli < (k * n + 1) * nanosPerMilli
  rw [Nat.mul_lt_mul_right (by decide), Nat.lt_succ_iff,
    Nat.mul_le_mul_left_iff (Nat.lt_of_succ_lt hk)]
  exact Nat.lt_iff_add_one_le

/-- Who waits for it to end may get a report after any number of renewals. -/
theorem exists_report (hk : 0 < k) (hlease : k * nanosPerMilli < lease) (n : Nat) : ∃ o earlier,
    Run [.empty "q" lease] (fun _ event => event.JoinsIdle) (o :: earlier) o.after ∧
    o.Reports 0 (.ofNat n) 0 ∧ renewalsMade 0 earlier = n := by
  obtain ⟨earlier, run, hearlier⟩ := run_renewals hk hlease n
  have hidle : (Event.join ⟨false, .collecting 0⟩).JoinsIdle := by decide
  have stopped : Run _ _ _ (told lease k n (k * n)) := .step (.stop 0) run trivial rfl
  have ended := Run.step (.keeper 0) stopped trivial rfl
  have joined := Run.step (.join ⟨false, .collecting 0⟩) ended hidle rfl
  have collected := Run.step (.move 2 .collect) joined trivial rfl
  refine ⟨_, _, collected, ⟨2, false, rfl, rfl, rfl⟩, ?_⟩
  have hrecord := renewalsMade_record hlease n
  unfold renewalsMade at *
  rw [countP_cons_toNat, countP_cons_toNat, countP_cons_toNat, List.countP_append, hrecord,
    hearlier]
  rfl

end

end Tireless

/-- The law that a report says how many renewals of a keeper have succeeded and how many have
failed. -/
def ExactReports (stores : List Store) : Prop :=
  ∀ later o earlier w k renewed failed,
    Run stores (fun _ event => event.JoinsIdle) (later ++ o :: earlier) w →
    o.Reports k renewed failed →
      renewed.toNat = renewalsMade k earlier ∧ failed.toNat = renewalsFailed k earlier

/-- The report of a keeper whose renewals have all succeeded, `2 ^ 32` of them, is that there have
been none. -/
theorem not_exactReports_fullCounter : ¬ ExactReports [.empty "q" 5000000000] := by
  intro law
  -- The law is read for any number of renewals, so that no run of `2 ^ 32` of them is evaluated.
  have hexact : ∀ n, (UInt32.ofNat n).toNat = n := by
    intro n
    have hlease : 2 * nanosPerMilli < 5000000000 := by decide
    obtain ⟨o, earlier, run, reports, hmade⟩ := Tireless.exists_report Nat.two_pos hlease n
    exact (law [] o earlier _ _ _ _ run reports).1.trans hmade
  exact absurd (hexact UInt32.size) (by decide)

/-- The law that a keeper, when it is told to stop, has counted all renewals that were due
before. -/
def ExactCounts (stores : List Store) : Prop :=
  ∀ after since earlier o x w q k lease period name d m,
    Run stores (fun _ event => event.JoinsIdle) (after ++ x :: (since ++ o :: earlier)) w →
    stores[q]? = some (.empty name lease) → Stint q k d m lease period since o x →
    ∀ n, (∀ j, j < n ↔ o.after.plant.now + (j + 1) * period < x.before.plant.now) →
      ∀ keeper ∈ w.plant.keeping? k, keeper.renewed.toNat + keeper.failed.toNat = n

/-- A keeper has counted nothing when it is told to stop after `2 ^ 32` renewals. -/
theorem not_exactCounts_fullCounter : ¬ ExactCounts [.empty "q" 5000000000] := by
  intro law
  -- The law is read for any number of renewals, so that no run of `2 ^ 32` of them is evaluated.
  have hexact : ∀ n, (UInt32.ofNat n).toNat = n := by
    intro n
    have hlease : 2 * nanosPerMilli < 5000000000 := by decide
    obtain ⟨since, earlier, o, x, run, stint, hnumber, keeper, hkeeper, hrenewed, hfailed⟩ :=
      Tireless.exists_stint Nat.one_lt_two hlease n
    have hcounted := law [] since earlier o x _ _ _ _ _ _ _ _ run rfl stint n hnumber keeper hkeeper
    rw [hrenewed, hfailed] at hcounted
    exact hcounted
  exact absurd (hexact UInt32.size) (by decide)

end Leasework
