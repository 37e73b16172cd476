import Leasework.Proofs.Lease.Timetable

/-!
# `Leasework.Proofs.Lease.Endurance`: which failures a lease outlasts

A `Stint` lasts from the event with which a keeper takes up work to the one with which it is told to
stop. `Run.endurance` says what comes of it: when renewals are attempted and how they are counted,
whether the lease is kept, and when the message is back if it is not.

At the end of a stint the keeper is at work still (`Stint.exists_atWork`), with a last refresh of
the lease. `Stint.standing` says of every moment before how the lease stood then, from that last
refresh alone: either it was the last one then as well, or the lease had been refreshed in time.
`Stint.silent` says that nothing comes after the end, so `Stint.accounts` can count what the keeper
has counted, and `Stint.counted` what the store has.
-/

set_option autoImplicit false

namespace Leasework

open Queue (Call Deed Delivery Message Progress Request Store)

/-! ### Renewals that a store counts -/

namespace Queue
variable {now : Nat} {s s' : Store}

/-- A store counts a renewal that it carries out. -/
theorem Store.Step.renewed_attempt {request : Request} {result : Except Failure Reply}
    (st : Store.Step now s (.attempt request) s' (some (.answered result)))
    (renewal : request.IsRenewal) : s'.tally.renewed = s.tally.renewed + result.isOk.toNat := by
  cases st with
  | faulted | lost | renewed => rfl
  | _ => cases renewal

/-- It counts nothing else as a renewal. -/
theorem Store.Step.renewed_avoids {deed : Deed} {outcome : Option Outcome}
    (st : Store.Step now s deed s' outcome) (aside : deed.Avoids Request.IsRenewal) :
    s'.tally.renewed = s.tally.renewed := by
  cases st with
  | renewed => exact absurd trivial aside
  | _ => rfl

/-- A renewal is counted with the step that completes it, if it succeeds. -/
theorem Call.Step.renewed_tally {canceled : Bool} {c : Call} {progress : Progress}
    (st : c.Step canceled now s s' progress) (renewal : c.request.IsRenewal) :
    s'.tally.renewed = s.tally.renewed + (progress.result?.any Except.isOk).toNat := by
  cases st with
  | quit => rfl
  | settled st => exact st.renewed_attempt renewal
  | throttled st => exact st.renewed_attempt renewal
  | blocked st =>
    generalize c.request = request at st renewal
    cases st
    cases renewal

end Queue

/-- A store that only one keeper makes renewals on counts those of the keeper. -/
theorem World.step_renewed {q k : Nat} {w w' : World} {event : Event} {handle : Queue.Handle}
    {d : Delivery} {s : Store} (ko : w.plant.KeepersOrderly) (happens : w.step event = some w')
    (only : w.OnlyKeeper q k Request.IsRenewal event) (kf : w.plant.KeepsFor k handle d)
    (hstore : handle.store = q) (hs : w.plant.stores[q]? = some s) :
    ∃ s' ∈ w'.plant.stores[q]?, s'.tally.renewed = s.tally.renewed
      + (((⟨w, event, w'⟩ : Occurrence).completion? k).any Except.isOk).toNat := by
  by_cases hevent : event = .keeper k
  · subst hevent
    cases World.step_cases happens with
    | @kept _ p' made =>
      obtain ⟨e, found, st⟩ := Plant.stepKeeper_cases made
      obtain ⟨hmem, hnumber⟩ := Plant.mem_of_keeper? found
      rw [Occurrence.completion?, Occurrence.renewal?]
      rcases st.called found with
        ⟨hstores, hnone⟩ | ⟨call, p₁, progress, isNew, calling, went, hstores, hrenewal⟩
      · refine ⟨s, hstores ▸ hs, ?_⟩
        rw [hnone]
        rfl
      · obtain ⟨hrequest, hhandle⟩ := ko.call?_shape found calling
        obtain ⟨s₀, s', hs₀, st, rfl⟩ := Plant.stepCall_cases went
        have hthere : call.handle.store = q := by
          rw [hhandle, (kf.2 e hmem hnumber).1, hstore]
        have hs' := Plant.stores_withStore hs₀ s'
        rw [← hstores, hthere] at hs'
        rw [hthere] at hs₀
        cases hs₀.symm.trans hs
        refine ⟨s', hs', ?_⟩
        rw [hrenewal]
        refine st.renewed_tally ?_
        rw [hrequest]
        trivial
  · obtain ⟨s', hs', hcase⟩ := World.step_avoids ko happens only hevent s hs
    refine ⟨s', hs', ?_⟩
    rw [Occurrence.completion?, Occurrence.renewal?, World.renewal?_of_ne hevent]
    rcases hcase with rfl | ⟨deed, outcome, haside, st⟩
    · rfl
    · exact st.renewed_avoids haside

/-! ### Looking back on a keeper at work -/

namespace AtWork
variable {q k lease period start n last : Nat} {d : Delivery} {m : Message}
  {since : List Occurrence} {w : World}

/-- The renewals that have begun are those that were due before now. -/
theorem begun_iff (a : AtWork q k d m lease period start n last since w)
    (apart : ∀ j, w.plant.now ≠ start + (j + 1) * period) (j : Nat) :
    j < n ↔ start + (j + 1) * period < w.plant.now := by
  constructor
  · intro hj
    have hle : start + (j + 1) * period ≤ start + n * period :=
      Nat.add_le_add_left (Nat.mul_le_mul_right _ hj) _
    exact Nat.lt_of_le_of_ne (Nat.le_trans hle a.begun_le) (apart j).symm
  · intro hlt
    refine Nat.lt_of_not_le fun hn => ?_
    have hle : start + (n + 1) * period ≤ start + (j + 1) * period :=
      Nat.add_le_add_left (Nat.mul_le_mul_right _ (Nat.succ_le_succ hn)) _
    exact absurd hlt (Nat.not_lt.mpr (Nat.le_trans a.waits hle))

/-- A renewal that comes after the last refresh fails. -/
theorem misses_of_begun (a : AtWork q k d m lease period start n last since w) {u : Nat}
    (hu : u ∈ moments (·.begins k) since) (hlt : last < u) : u ∈ moments (·.misses k) since := by
  obtain ⟨o, ho, hbegins, rfl⟩ := mem_moments.mp hu
  refine mem_moments.mpr ⟨o, ho, ?_, rfl⟩
  obtain ⟨result, hcompletion⟩ := Option.isSome_iff_exists.mp (a.ended o ho hbegins)
  rw [Occurrence.misses, hcompletion]
  cases result with
  | error f => rfl
  | ok reply =>
    have hrenews : o.renews k = true := by
      rw [Occurrence.renews, hcompletion]
      rfl
    have hgood := List.mem_append_left [start] (mem_moments.mpr ⟨o, ho, hrenews, rfl⟩)
    exact absurd hlt (Nat.not_lt.mpr (a.refreshed.le _ hgood))

/-- Between a refresh and an attempt that is not hit, `c` attempts are hit. The latter succeeds if
and only if `c + 1` periods are shorter than a lease. -/
theorem survives (a : AtWork q k d m lease period start n last since w) (hpos : 0 < period)
    {j c : Nat} (hs : start + j * period ∈ refreshMoments k start since)
    (hu : start + (j + c + 1) * period ∈ moments (·.isUnhit q k) since)
    (hhit : ∀ i < c, start + (j + i + 1) * period ∉ moments (·.isUnhit q k) since) :
    start + (j + c + 1) * period ∈ refreshMoments k start since ↔ (c + 1) * period < lease := by
  have hsplit : (j + c + 1) * period = j * period + (c + 1) * period := by
    rw [Nat.add_assoc, Nat.add_mul]
  have hlonger : 0 < (c + 1) * period := Nat.mul_pos (Nat.succ_pos c) hpos
  rw [a.refreshed.gap hs hu (by omega) fun u' hu' hlt => ?between]
  · omega
  case between =>
    obtain ⟨i, -, rfl⟩ := a.exists_of_unhit hu'
    have hlt : j * period < (i + 1) * period := Nat.lt_of_add_lt_add_left hlt
    obtain ⟨i, rfl⟩ := Nat.exists_eq_add_of_le (Nat.le_of_lt_succ (Nat.lt_of_mul_lt_mul_right hlt))
    refine Nat.add_le_add_left (Nat.mul_le_mul_right _ ?_) _
    refine Nat.succ_le_succ (Nat.add_le_add_left (Nat.le_of_not_lt fun hi => ?_) _)
    exact hhit i hi hu'

end AtWork

/-! ### A stint -/

instance (p : Plant) (k : Nat) : Decidable (p.Told k) := inferInstanceAs (Decidable (_ ∧ _))

/-- A keeper that is free and waits makes no step with an event with which it is told to stop. -/
theorem Plant.Passes.eq_none_of_told {p p' : Plant} {k : Nat} {renewal : Option (Bool × Progress)}
    {keeper : Lease.Keeper Call} (ps : Plant.Passes k p p' renewal)
    (found : p.keeping? k = some keeper) (free : keeper.stopped = false)
    (quiet : keeper.isRenewing = false) (told : p'.Told k) : renewal = none := by
  cases ps with
  | begun found' _ _ after =>
    cases found'.symm.trans found
    have hstopped := told.2 _ after
    rw [Lease.Keeper.stopped_noting] at hstopped
    cases hstopped.symm.trans free
  | continued found' busy =>
    cases found'.symm.trans found
    cases busy.symm.trans quiet
  | _ => rfl

/-- A keeper whose counters were at zero after an event has counted the renewals that have succeeded
and failed since. -/
theorem Run.accounts {stores : List Store} {may : World → Event → Prop}
    {past later earlier : List Occurrence} {o : Occurrence} {w : World} {k : Nat}
    {keeper : Lease.Keeper Call} (run : Run stores may past w)
    (hpast : past = later ++ o :: earlier) (found : o.after.plant.keeping? k = some keeper)
    (hrenewed : keeper.renewed = 0) (hfailed : keeper.failed = 0)
    (quiet : keeper.isRenewing = false) :
    renewalsBegun k later
        = renewalsMade k later + renewalsFailed k later + (w.plant.isRenewing k).toNat ∧
      ∀ keeper' ∈ w.plant.keeping? k,
        Lease.Shows keeper'.renewed (renewalsMade k later) ∧
          Lease.Shows keeper'.failed (renewalsFailed k later) := by
  have hidle : o.after.plant.isRenewing k = false := by
    rw [Plant.isRenewing, found]
    exact quiet
  have hbefore := (run.exists_after hpast).booked k
  have hbalance₀ := hbefore.balance
  have hcompleted₀ := renewalsCompleted_eq k (o :: earlier)
  rw [hidle, Bool.toNat_false] at hbalance₀
  have hafter := run.booked k
  have hbalance := hafter.balance
  have hcompleted := renewalsCompleted_eq k past
  have happend : ∀ kind : Occurrence → Bool,
      past.countP kind = later.countP kind + (o :: earlier).countP kind := by
    intro kind
    rw [hpast, List.countP_append]
  refine ⟨?balance, fun keeper' hk' => ?counters⟩
  case balance =>
    -- All counts are linear in the parts of the record.
    unfold renewalsBegun renewalsCompleted renewalsMade renewalsFailed at *
    simp only [happend] at hbalance hcompleted
    omega
  case counters =>
    -- The older part may have filled a counter, but only so often that it was at zero again.
    obtain ⟨hmade₀, hfailed₀⟩ := hbefore.noted keeper found
    obtain ⟨hmade, hlost⟩ := hafter.noted keeper' hk'
    rw [renewalsMade, happend, UInt32.ofNat_add] at hmade
    rw [renewalsFailed, happend, UInt32.ofNat_add] at hlost
    rw [hmade, hlost, ← renewalsMade, ← renewalsMade, ← renewalsFailed, ← renewalsFailed,
      ← hmade₀, ← hfailed₀, hrenewed, hfailed, UInt32.add_zero, UInt32.add_zero]
    exact ⟨.ofNat _, .ofNat _⟩

/-- A keeper takes up work with an event `o`, and is told to stop with an event `x`:

- `takesUp`: it starts, just as its message has been delivered;
- `undisturbed`: in between it is left alone;
- `free`, `told`: it is told with `x`, and not before;
- `apart`: no renewal is due at that very moment. -/
structure Stint (q k : Nat) (d : Delivery) (m : Message) (lease period : Nat)
    (since : List Occurrence) (o x : Occurrence) : Prop where
  takesUp : o.TakesUp q k d m lease period
  undisturbed : ∀ o' ∈ since, o'.before.LeavesAlone q k d.receipt o'.event
  free : ∃ keeper ∈ x.before.plant.keeping? k, keeper.stopped = false
  told : x.after.plant.Told k
  apart : ∀ j, x.before.plant.now ≠ o.after.plant.now + (j + 1) * period

namespace Stint
variable {stores : List Store} {may : World → Event → Prop} {after since earlier : List Occurrence}
  {o x : Occurrence} {w : World} {q k lease period n last : Nat} {name : String} {d : Delivery}
  {m : Message}

theorem not_told (stint : Stint q k d m lease period since o x) : ¬ x.before.plant.Told k := by
  intro told
  obtain ⟨keeper, hkeeper, hfree⟩ := stint.free
  cases (told.2 keeper hkeeper).symm.trans hfree

/-- Until it is told to stop, the keeper is at work. -/
theorem exists_atWork (stint : Stint q k d m lease period since o x)
    (run : Run stores may (since ++ o :: earlier) x.before)
    (hq : stores[q]? = some (.empty name lease)) :
    ∃ n last, AtWork q k d m lease period o.after.plant.now n last since x.before :=
  (run.atWork hq stint.takesUp stint.undisturbed).resolve_left stint.not_told

/-- At every moment before, the lease lasted if and only if it had not run out since the last
refresh of all, and the message was back otherwise. -/
theorem standing (stint : Stint q k d m lease period since o x)
    (run : Run stores may (since ++ o :: earlier) x.before)
    (hq : stores[q]? = some (.empty name lease))
    (a : AtWork q k d m lease period o.after.plant.now n last since x.before)
    {newer rest : List Occurrence} {o' : Occurrence} (hsplit : x :: since = newer ++ o' :: rest) :
    (o'.before.Holds q d.receipt ↔ o'.before.plant.now < last + lease) ∧
      (o'.before.IsBack q m rest ↔ last + lease ≤ o'.before.plant.now) := by
  cases newer with
  | nil =>
    obtain ⟨rfl, rfl⟩ := List.cons.inj hsplit
    exact ⟨a.standing.holds_iff, a.standing.isBack_iff⟩
  | cons x' newer =>
    have hsince : since = newer ++ o' :: rest := (List.cons.inj hsplit).2
    subst hsince
    have hpast : newer ++ o' :: rest ++ o :: earlier = newer ++ o' :: (rest ++ o :: earlier) := by
      rw [List.append_assoc]
      rfl
    obtain ⟨before, -, -⟩ := run.exists_before hpast
    have undisturbed : ∀ o'' ∈ rest, o''.before.LeavesAlone q k d.receipt o''.event :=
      fun o'' ho'' => stint.undisturbed o''
        (List.mem_append_right _ (List.mem_cons_of_mem _ ho''))
    rcases before.atWork hq stint.takesUp undisturbed with told | ⟨n', last', a'⟩
    · exact absurd (run.told hpast told) stint.not_told
    · -- The lease has been refreshed later, in time, or not at all.
      have hrefreshes : refreshMoments k o.after.plant.now (newer ++ o' :: rest)
          = moments (·.renews k) (newer ++ [o']) ++ refreshMoments k o.after.plant.now rest := by
        rw [refreshMoments, refreshMoments, ← List.append_assoc, ← moments_append,
          List.append_assoc newer]
        rfl
      have hnewer : ∀ s ∈ moments (·.renews k) (newer ++ [o']), o'.before.plant.now ≤ s := by
        intro s hs
        obtain ⟨o'', ho'', -, rfl⟩ := mem_moments.mp hs
        rcases List.mem_append.mp ho'' with ho'' | ho''
        · exact run.le_now hpast o'' ho''
        · obtain rfl := List.mem_singleton.mp ho''
          exact Nat.le_refl _
      have r := a.refreshed
      rw [hrefreshes] at r
      have hcases := r.earlier a'.refreshed hnewer
      have hle := r.le last' (List.mem_append_right _ a'.refreshed.mem)
      rw [a'.standing.holds_iff, a'.standing.isBack_iff]
      constructor <;> omega

/-- From then on no renewal begins, and none is in progress. -/
theorem silent (stint : Stint q k d m lease period since o x)
    (run : Run stores may (after ++ x :: (since ++ o :: earlier)) w)
    (a : AtWork q k d m lease period o.after.plant.now n last since x.before) :
    (∀ o' ∈ after ++ [x], o'.begins k = false) ∧ w.plant.isRenewing k = false := by
  obtain ⟨before, -, happens⟩ := run.exists_before rfl
  obtain ⟨keeper, hkeeper, hfree, -, hphase⟩ := a.keeper
  have hquiet : keeper.isRenewing = false := by rw [Lease.Keeper.isRenewing, hphase]
  have ps := World.step_passing before.keepersOrderly happens k
  have hnone := ps.eq_none_of_told hkeeper hfree hquiet stint.told
  have hbefore : x.before.plant.isRenewing k = false := by
    rw [Plant.isRenewing, hkeeper]
    exact hquiet
  have hafter : x.after.plant.isRenewing k = false := by
    have hbalance := ps.balance
    rw [hnone, hbefore] at hbalance
    exact Bool.toNat_eq_zero.mp (by simpa using hbalance.symm)
  have hsilent := run.silent rfl stint.told
  constructor
  · intro o' ho'
    rcases List.mem_append.mp ho' with ho' | ho'
    · exact hsilent.unbegun o' ho'
    · rw [List.mem_singleton.mp ho']
      exact (Occurrence.unseen q hnone).1
  · have hpending := hsilent.pending
    rw [hafter, Bool.toNat_false] at hpending
    exact Bool.toNat_eq_zero.mp (Nat.eq_zero_of_add_eq_zero_left hpending)

/-- The renewals since the start are those of the timetable, and the keeper has counted them. -/
theorem accounts (stint : Stint q k d m lease period since o x)
    (run : Run stores may (after ++ x :: (since ++ o :: earlier)) w)
    (a : AtWork q k d m lease period o.after.plant.now n last since x.before) :
    moments (·.begins k) (after ++ x :: since) = timetable o.after.plant.now period n ∧
      renewalsMade k (after ++ x :: since) + renewalsFailed k (after ++ x :: since) = n ∧
      ∀ keeper ∈ w.plant.keeping? k,
        Lease.Shows keeper.renewed (renewalsMade k (after ++ x :: since)) ∧
          Lease.Shows keeper.failed (renewalsFailed k (after ++ x :: since)) := by
  obtain ⟨unbegun, idle⟩ := stint.silent run a
  have hbegun : moments (·.begins k) (after ++ x :: since)
      = timetable o.after.plant.now period n := by
    rw [List.append_cons, moments_append, moments_eq_nil unbegun, List.nil_append, a.begun]
  have hpast : after ++ x :: (since ++ o :: earlier) = after ++ x :: since ++ o :: earlier := by
    rw [List.append_assoc]
    rfl
  obtain ⟨handle, -, found⟩ := stint.takesUp.started
  have hkeeping : o.after.plant.keeping? k = some (.start period o.after.plant.now) := by
    rw [Plant.keeping?, found]
    rfl
  obtain ⟨hbalance, hcounters⟩ := run.accounts hpast hkeeping rfl rfl
    (Lease.Keeper.isRenewing_start _ _)
  refine ⟨hbegun, ?_, hcounters⟩
  rw [idle, renewalsBegun, ← length_moments, hbegun, length_timetable] at hbalance
  exact hbalance.symm

/-- The store counts the renewals of the keeper, as long as nobody else renews anything there. -/
theorem counted (stint : Stint q k d m lease period since o x)
    (run : Run stores may (after ++ x :: (since ++ o :: earlier)) w)
    (only : ∀ o' ∈ after ++ x :: since, o'.before.OnlyKeeper q k Request.IsRenewal o'.event)
    {s₀ : Store} (hs₀ : o.after.plant.stores[q]? = some s₀) :
    ∃ s ∈ w.plant.stores[q]?,
      s.tally.renewed = s₀.tally.renewed + renewalsMade k (after ++ x :: since) := by
  have hpast : after ++ x :: (since ++ o :: earlier) = after ++ x :: since ++ o :: earlier := by
    rw [List.append_assoc]
    rfl
  obtain ⟨handle, hstore, found⟩ := stint.takesUp.started
  have kf := (run.exists_after hpast).keepersOrderly.keepsFor found
  refine (run.since (P := fun since v =>
    (∀ o' ∈ since, o'.before.OnlyKeeper q k Request.IsRenewal o'.event) →
      v.plant.KeepsFor k handle d ∧ ∃ s ∈ v.plant.stores[q]?,
        s.tally.renewed = s₀.tally.renewed + renewalsMade k since) hpast ?_ ?_ only).2
  · exact fun _ => ⟨kf, s₀, hs₀, rfl⟩
  · intro since v event v' ko happens before only
    obtain ⟨allowed, only⟩ := List.forall_mem_cons.mp only
    obtain ⟨kf, s, hs, hrenewed⟩ := before only
    obtain ⟨s', hs', hrenewed'⟩ := World.step_renewed ko happens allowed kf hstore hs
    refine ⟨World.step_keepsFor happens kf, s', hs', ?_⟩
    rw [hrenewed', hrenewed, renewalsMade, renewalsMade, countP_cons_toNat, Nat.add_assoc]

end Stint

/-! ### What comes of a stint -/

/-- What comes of the stint of a keeper, when the events `after` have happened since its end:

- `attempts`: a renewal begins whenever some whole periods have passed since the start, till the
  end. Each of them succeeds or fails;
- `counters`, `reported`: the keeper has counted them, with 32 bits for those that succeeded and
  for those that failed, and reports just that;
- `held`: the lease was held all the time if and only if, from each of its refreshes, less than a
  lease passed till the next attempt that was not hit by an injected failure, or till the end;
- `survived`: when `c` attempts are hit between a refresh and an attempt that is not, the latter
  succeeds if and only if `c + 1` periods are shorter than a lease;
- `lost`: otherwise every attempt fails that comes after that refresh, and the message is back from
  exactly a lease after it on, also after the end;
- `counted`: the store counts the renewals that have succeeded, if nobody else renews anything. -/
structure Endurance (q k : Nat) (d : Delivery) (m : Message) (lease period : Nat)
    (after since : List Occurrence) (o x : Occurrence) (w : World) : Prop where
  attempts : ∃ n,
    moments (·.begins k) (after ++ x :: since) = timetable o.after.plant.now period n ∧
      (∀ j, j < n ↔ o.after.plant.now + (j + 1) * period < x.before.plant.now) ∧
      renewalsMade k (after ++ x :: since) + renewalsFailed k (after ++ x :: since) = n
  counters : ∀ keeper ∈ w.plant.keeping? k,
    Lease.Shows keeper.renewed (renewalsMade k (after ++ x :: since)) ∧
      Lease.Shows keeper.failed (renewalsFailed k (after ++ x :: since))
  reported : ∀ event w' renewed failed, w.step event = some w' →
    (⟨w, event, w'⟩ : Occurrence).Reports k renewed failed →
      Lease.Shows renewed (renewalsMade k (after ++ x :: since)) ∧
        Lease.Shows failed (renewalsFailed k (after ++ x :: since))
  held : (∀ o' ∈ x :: since, o'.before.Holds q d.receipt) ↔
    ∀ s ∈ refreshMoments k o.after.plant.now since,
      firstAfter s (moments (·.isUnhit q k) since) x.before.plant.now < s + lease
  survived : ∀ j c,
    o.after.plant.now + j * period ∈ refreshMoments k o.after.plant.now since →
    o.after.plant.now + (j + c + 1) * period ∈ moments (·.isUnhit q k) since →
    (∀ i < c, o.after.plant.now + (j + i + 1) * period ∉ moments (·.isUnhit q k) since) →
      (o.after.plant.now + (j + c + 1) * period ∈ refreshMoments k o.after.plant.now since ↔
        (c + 1) * period < lease)
  lost : ∀ s ∈ refreshMoments k o.after.plant.now since,
    s + lease ≤ firstAfter s (moments (·.isUnhit q k) since) x.before.plant.now →
      (∀ u ∈ moments (·.begins k) since, s < u → u ∈ moments (·.misses k) since) ∧
      (∀ newer o' rest, x :: since = newer ++ o' :: rest →
        (o'.before.IsBack q m rest ↔ s + lease ≤ o'.before.plant.now)) ∧
      w.IsBack q m (after ++ x :: since)
  counted : (∀ o' ∈ after ++ x :: since,
      o'.before.OnlyKeeper q k Request.IsRenewal o'.event) →
    ∀ s₀ ∈ o.after.plant.stores[q]?, ∀ s ∈ w.plant.stores[q]?,
      s.tally.renewed = s₀.tally.renewed + renewalsMade k (after ++ x :: since)

/-- A keeper that starts when its message is delivered renews in time, whatever failures are
injected, and as long as these leave less than a lease between two attempts, the lease is kept. -/
theorem Run.endurance {stores : List Store} {may : World → Event → Prop}
    {after since earlier : List Occurrence} {o x : Occurrence} {w : World} {q k lease period : Nat}
    {name : String} {d : Delivery} {m : Message}
    (run : Run stores may (after ++ x :: (since ++ o :: earlier)) w)
    (hq : stores[q]? = some (.empty name lease))
    (stint : Stint q k d m lease period since o x) :
    Endurance q k d m lease period after since o x w := by
  obtain ⟨before, -, -⟩ := run.exists_before rfl
  obtain ⟨n, last, a⟩ := stint.exists_atWork before hq
  obtain ⟨hbegun, hnumber, hcounters⟩ := stint.accounts run a
  have hunhit : ∀ u ∈ moments (·.isUnhit q k) since, u < x.before.plant.now := by
    intro u hu
    obtain ⟨j, hj, rfl⟩ := a.exists_of_unhit hu
    exact (a.begun_iff stint.apart j).mp hj
  refine ⟨⟨n, hbegun, a.begun_iff stint.apart, hnumber⟩, hcounters,
    fun event w' renewed failed happens' reports => ?reported, ?held,
    fun j c hs hu hhit => ?survived, fun s hs hlate => ?lost, fun only s₀ hs₀ s hs => ?counted⟩
  case reported =>
    obtain ⟨-, keeper, hkeeper, rfl, rfl⟩ :=
      World.gone_of_reports run.keepersOrderly happens' reports
    exact hcounters keeper hkeeper
  case held =>
    rw [← a.refreshed.lasts_iff hunhit]
    constructor
    · intro held
      exact (stint.standing before hq a (List.nil_append _).symm).1.mp (held x List.mem_cons_self)
    · intro hend o' ho'
      obtain ⟨newer, rest, hsplit⟩ := List.append_of_mem ho'
      rw [(stint.standing before hq a hsplit).1]
      refine Nat.lt_of_le_of_lt ?_ hend
      rcases List.mem_cons.mp ho' with rfl | ho'
      · exact Nat.le_refl _
      · exact before.now_le o' (List.mem_append_left _ ho')
  case survived => exact a.survives stint.takesUp.period_pos hs hu hhit
  case lost =>
    obtain rfl := a.refreshed.eq_last hunhit hs hlate
    have hover : s + lease ≤ x.before.plant.now := by
      refine Nat.not_lt.mp fun hlasts => ?_
      have hnext := (a.refreshed.lasts_iff hunhit).mp hlasts s hs
      exact absurd hnext (Nat.not_lt.mpr hlate)
    exact ⟨fun u hu hlt => a.misses_of_begun hu hlt,
      fun newer o' rest hsplit => (stint.standing before hq a hsplit).2,
      a.standing.isBack_of_run hover run rfl⟩
  case counted =>
    obtain ⟨s', hs', hrenewed⟩ := stint.counted run only hs₀
    cases hs'.symm.trans hs
    exact hrenewed

/-- The lease is five milliseconds, and the keeper renews it every other millisecond. The second
renewal is hit by an injected failure, and so are the fourth and the fifth. -/
def injectedFailures : List Event :=
  [.keeper 0, .stop 0, .advance 13, .keeper 0, .advance 12, .keeper 0, .advance 10, .keeper 0,
    .inject 0 .renewal 2, .advance 8, .keeper 0, .advance 6, .keeper 0, .inject 0 .renewal 1,
    .advance 4, .keeper 0, .advance 2, .keep ⟨0, .none⟩ ⟨0, "q-1", "a"⟩ 2000000,
    .move 1 (.call .go), .join ⟨false, .call (.start ⟨0, .none⟩ (.take 1))⟩,
    .move 0 (.call .go), .join ⟨false, .call (.start ⟨0, .none⟩ (.send "a"))⟩]

/-- One failure is survived, and two in a row are not: the third renewal succeeds, and the sixth
comes too late. By the end the message is back. -/
theorem endurance_injectedFailures : ∃ after since o x w,
    Endurance 0 0 ⟨0, "q-1", "a"⟩ ⟨1, "a", 1⟩ 5000000 2000000 after since o x w ∧
      moments (·.begins 0) since = timetable 0 2000000 6 ∧
      refreshMoments 0 0 since = [6000000, 2000000, 0] ∧
      w.IsBack 0 ⟨1, "a", 1⟩ (after ++ x :: since) ∧
      ∃ s ∈ w.plant.stores[0]?, s.tally.renewed = 2 := by
  have hplayed : ∃ run ∈ World.play [.empty "q" 5000000] injectedFailures,
      ∃ x ∈ run.1[1]?, ∃ o ∈ run.1[17]?,
        (o.after.plant.keeper? 0
            = some ⟨0, ⟨0, .none⟩, ⟨0, "q-1", "a"⟩, .start 2000000 o.after.plant.now, false⟩ ∧
          ∃ s ∈ o.after.plant.stores[0]?, ⟨0, ⟨1, "a", 1⟩, o.after.plant.now + 5000000⟩ ∈ s.held) ∧
        (∀ o' ∈ (run.1.drop 2).take 15, o'.before.LeavesAlone 0 0 0 o'.event) ∧
        ((∃ keeper ∈ x.before.plant.keeping? 0, keeper.stopped = false) ∧ x.after.plant.Told 0) ∧
        (o.after.plant.now = 0 ∧ x.before.plant.now = 13000000) ∧
        (moments (·.begins 0) ((run.1.drop 2).take 15) = timetable 0 2000000 6 ∧
          refreshMoments 0 0 ((run.1.drop 2).take 15) = [6000000, 2000000, 0] ∧
          firstAfter 6000000 (moments (·.isUnhit 0 0) ((run.1.drop 2).take 15)) 13000000
            = 12000000 ∧
          ∃ s ∈ run.2.plant.stores[0]?, s.tally.renewed = 2) := by
    decide
  obtain ⟨⟨past, w⟩, hplay, x, hx, o, ho, ⟨found, received⟩, undisturbed, ⟨free, told⟩,
    ⟨hstart, hstop⟩, hbegun, hrefreshes, hnext, hcounted⟩ := hplayed
  have takesUp : o.TakesUp 0 0 ⟨0, "q-1", "a"⟩ ⟨1, "a", 1⟩ 5000000 2000000 :=
    ⟨⟨_, rfl, found⟩, ⟨2, by decide, rfl⟩, received⟩
  have stint : Stint 0 0 ⟨0, "q-1", "a"⟩ ⟨1, "a", 1⟩ 5000000 2000000
      ((past.drop 2).take 15) o x := by
    refine ⟨takesUp, undisturbed, free, told, fun j => ?_⟩
    rw [hstart, hstop]
    omega
  have hat : ∀ {i : Nat} {o : Occurrence}, past[i]? = some o →
      past.drop i = o :: past.drop (i + 1) := by
    intro i o h
    obtain ⟨hlt, rfl⟩ := List.getElem?_eq_some_iff.mp h
    exact List.drop_eq_getElem_cons hlt
  have hpast : past = past.take 1 ++ x :: ((past.drop 2).take 15 ++ o :: past.drop 18) := by
    have hmiddle := List.take_append_drop 15 (past.drop 2)
    rw [List.drop_drop, hat ho] at hmiddle
    rw [hmiddle, ← hat hx, List.take_append_drop]
  have run : Run _ (fun _ _ => True) past w := Run.play hplay fun _ _ => trivial
  rw [hpast] at run
  have endurance := Run.endurance run rfl stint
  have hmem : 6000000 ∈ refreshMoments 0 o.after.plant.now ((past.drop 2).take 15) := by
    rw [hstart, hrefreshes]
    exact List.mem_cons_self
  refine ⟨_, _, o, x, w, endurance, hbegun, hrefreshes, (endurance.lost _ hmem ?_).2.2, hcounted⟩
  rw [hstop]
  exact Nat.le_trans (by decide) (Nat.le_of_eq hnext.symm)

end Leasework
