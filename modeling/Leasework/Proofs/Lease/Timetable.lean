import Leasework.Proofs.Lease.Guard
import Leasework.Proofs.Lease.Silence
import Leasework.Proofs.Lease.Tenure

/-!
# `Leasework.Proofs.Lease.Timetable`: when a keeper renews

A keeper begins its renewals at the moments of a `timetable`: some whole periods after its start.
What it needs for that is in `World.LeavesAlone`. The clock waits for a renewal that is due, nothing
is throttled, and nobody else makes a request about the lease. Any injected failure may hit a
renewal, and anything may happen to other messages.

`Refreshed` is about moments only: which of them refreshed the lease, and which attempts were not
hit. `Refreshed.lasts_iff` and `Refreshed.gap` read off whether the lease has been kept.

`AtWork` is the invariant. It is kept by whatever others do (`AtWork.aside`), and by a renewal
(`AtWork.renewed`), which begins when it is due and is completed at once (`AtWork.step_keeper`).
`Run.atWork` puts these together for every run.
-/

set_option autoImplicit false

namespace Leasework

open Queue (Call Delivery Message Orderly Request Store)

/-! ### Moments -/

/-- The moments of the events of a kind on record, the last one first. -/
def moments (kind : Occurrence → Bool) (past : List Occurrence) : List Nat :=
  (past.filter kind).map fun o => o.before.plant.now

/-- The first of some moments that is later than a given one, or the end if there is none. -/
def firstAfter (moment : Nat) (all : List Nat) (stop : Nat) : Nat :=
  ((all.filter fun u => moment < u).min?).getD stop

/-- The first `n` moments of a timetable, the last one first: whole periods after the start. -/
def timetable (start period n : Nat) : List Nat :=
  (List.range n).reverse.map fun j => start + (j + 1) * period

section
variable {kind : Occurrence → Bool} {past later : List Occurrence} {o : Occurrence}

theorem moments_cons (h : kind o = true) :
    moments kind (o :: past) = o.before.plant.now :: moments kind past := by
  rw [moments, List.filter_cons_of_pos h]
  rfl

theorem moments_cons_of_not (h : kind o = false) :
    moments kind (o :: past) = moments kind past := by
  rw [moments, List.filter_cons_of_neg (by simp [h])]
  rfl

theorem moments_cons_eq_ite : moments kind (o :: past)
    = if kind o then o.before.plant.now :: moments kind past else moments kind past := by
  split
  · exact moments_cons ‹_›
  · exact moments_cons_of_not (Bool.eq_false_iff.mpr ‹_›)

theorem moments_eq_nil (h : ∀ o ∈ past, kind o = false) : moments kind past = [] := by
  rw [moments, List.filter_eq_nil_iff.mpr fun o ho => by simp [h o ho]]
  rfl

theorem moments_append :
    moments kind (later ++ past) = moments kind later ++ moments kind past := by
  rw [moments, List.filter_append, List.map_append]
  rfl

theorem mem_moments {u : Nat} :
    u ∈ moments kind past ↔ ∃ o ∈ past, kind o = true ∧ o.before.plant.now = u := by
  simp [moments, and_assoc]

theorem length_moments : (moments kind past).length = past.countP kind := by
  rw [moments, List.length_map, List.countP_eq_length_filter]

theorem timetable_succ (start period n : Nat) :
    timetable start period (n + 1) = (start + (n + 1) * period) :: timetable start period n := by
  rw [timetable, List.range_succ, List.reverse_append]
  rfl

theorem length_timetable (start period n : Nat) : (timetable start period n).length = n := by
  simp [timetable]

theorem mem_timetable {start period n u : Nat} :
    u ∈ timetable start period n ↔ ∃ j < n, start + (j + 1) * period = u := by
  simp [timetable]

/-- The end comes after all moments, so the first moment after a given one is in time if the end is,
or if one of them is. -/
theorem firstAfter_lt_iff {moment stop bound : Nat} {all : List Nat} (hall : ∀ u ∈ all, u < stop) :
    firstAfter moment all stop < bound ↔
      stop < bound ∨ ∃ u ∈ all, moment < u ∧ u < bound := by
  unfold firstAfter
  have hmem : ∀ {u}, u ∈ all.filter (fun u => moment < u) ↔ u ∈ all ∧ moment < u := by
    intro u
    rw [List.mem_filter, decide_eq_true_eq]
  cases hmin : (all.filter fun u => moment < u).min? with
  | none =>
    rw [List.min?_eq_none_iff] at hmin
    refine ⟨Or.inl, fun h => h.elim id ?_⟩
    rintro ⟨u, hu, hlt, -⟩
    have hin := hmem.mpr ⟨hu, hlt⟩
    rw [hmin] at hin
    cases hin
  | some first =>
    obtain ⟨hfirst, hleast⟩ := List.min?_eq_some_iff.mp hmin
    obtain ⟨hfirst, hlt⟩ := hmem.mp hfirst
    show first < bound ↔ _
    constructor
    · exact fun h => Or.inr ⟨first, hfirst, hlt, h⟩
    · rintro (h | ⟨u, hu, hlt', h⟩)
      · exact Nat.lt_trans (hall first hfirst) h
      · exact Nat.lt_of_le_of_lt (hleast u (hmem.mpr ⟨hu, hlt'⟩)) h

end

/-! ### Refreshing a lease now and then -/

/-- A lease is refreshed at some moments. Attempts at other moments may have failed, and `unhit` are
those that no injected failure has hit:

- `mem`, `le`: the last refresh is one of them;
- `kept`: every other refresh was followed by the next one before the lease ran out;
- `missed`: an attempt that was not hit and still failed came too late for the last refresh. -/
structure Refreshed (lease last : Nat) (good unhit : List Nat) : Prop where
  mem : last ∈ good
  le : ∀ s ∈ good, s ≤ last
  kept : ∀ s ∈ good, s = last ∨ ∃ u ∈ good, u ∈ unhit ∧ s < u ∧ u < s + lease
  missed : ∀ u ∈ unhit, u ∈ good ∨ last + lease ≤ u

namespace Refreshed
variable {lease last : Nat} {good unhit : List Nat} {s u stop : Nat}

/-- At first there is the receipt. -/
theorem start (lease begin : Nat) : Refreshed lease begin [begin] [] where
  mem := List.mem_singleton.mpr rfl
  le _ hs := Nat.le_of_eq (List.mem_singleton.mp hs)
  kept _ hs := Or.inl (List.mem_singleton.mp hs)
  missed := List.forall_mem_nil _

/-- An attempt succeeds. -/
theorem again (r : Refreshed lease last good unhit) (hlast : last < u) (hsoon : u < last + lease)
    (hunhit : ∀ u' ∈ unhit, u' ≤ u) : Refreshed lease u (u :: good) (u :: unhit) := by
  refine ⟨List.mem_cons_self, List.forall_mem_cons.mpr ⟨Nat.le_refl _, fun s hs => ?_⟩,
    List.forall_mem_cons.mpr ⟨Or.inl rfl, fun s hs => Or.inr ?_⟩,
    List.forall_mem_cons.mpr ⟨Or.inl List.mem_cons_self, fun u' hu' => Or.inl ?_⟩⟩
  · exact Nat.le_trans (r.le s hs) (Nat.le_of_lt hlast)
  · rcases r.kept s hs with rfl | ⟨u', hgood, hin, hlt⟩
    · exact ⟨u, List.mem_cons_self, List.mem_cons_self, hlast, hsoon⟩
    · exact ⟨u', List.mem_cons_of_mem _ hgood, List.mem_cons_of_mem _ hin, hlt⟩
  · refine List.mem_cons_of_mem _ ((r.missed u' hu').resolve_right fun hlate => ?_)
    exact absurd (Nat.lt_of_le_of_lt (hunhit u' hu') hsoon) (Nat.not_lt.mpr hlate)

/-- An attempt comes too late. -/
theorem tooLate (r : Refreshed lease last good unhit) (hlate : last + lease ≤ u) :
    Refreshed lease last good (u :: unhit) where
  mem := r.mem
  le := r.le
  kept s hs := (r.kept s hs).imp id fun ⟨u', hgood, hin, hlt⟩ =>
    ⟨u', hgood, List.mem_cons_of_mem _ hin, hlt⟩
  missed := List.forall_mem_cons.mpr ⟨Or.inr hlate, r.missed⟩

/-- Whatever an attempt comes to, the lease runs out a lease after the last refresh. -/
theorem attempt {s : Store} {now expiry : Nat} {result : Except Queue.Failure Queue.Reply}
    (r : Refreshed s.lease last good unhit)
    (attempted : Store.Tenure.Attempted now s (last + s.lease) result expiry) (hlast : last < now)
    (hunhit : ∀ u ∈ unhit, u ≤ now) :
    ∃ last' ≤ now, expiry = last' + s.lease ∧
      Refreshed s.lease last' (if result.isOk then now :: good else good)
        (if s.faults.renewals = 0 then now :: unhit else unhit) := by
  cases attempted with
  | hit f pending =>
    rw [if_neg (Nat.ne_of_gt pending)]
    exact ⟨last, Nat.le_of_lt hlast, rfl, r⟩
  | late f free expired =>
    rw [if_pos free]
    exact ⟨last, Nat.le_of_lt hlast, rfl, r.tooLate expired⟩
  | made free lasts =>
    rw [if_pos free]
    exact ⟨now, Nat.le_refl _, rfl, r.again hlast lasts hunhit⟩

/-- The lease has been kept till the end if and only if there was always another attempt in time, or
the end, before it ran out. -/
theorem lasts_iff (r : Refreshed lease last good unhit) (hunhit : ∀ u ∈ unhit, u < stop) :
    stop < last + lease ↔ ∀ s ∈ good, firstAfter s unhit stop < s + lease := by
  constructor
  · intro h s hs
    rw [firstAfter_lt_iff hunhit]
    rcases r.kept s hs with rfl | ⟨u, -, hin, hlt⟩
    · exact Or.inl h
    · exact Or.inr ⟨u, hin, hlt⟩
  · intro h
    refine ((firstAfter_lt_iff hunhit).mp (h last r.mem)).elim id ?_
    rintro ⟨u, hin, hlt, hsoon⟩
    -- An attempt after the last refresh that was not hit has come too late.
    rcases r.missed u hin with hgood | hlate
    · exact absurd hlt (Nat.not_lt.mpr (r.le u hgood))
    · exact absurd hsoon (Nat.not_lt.mpr hlate)

/-- A refresh that nothing follows in time is the last one. -/
theorem eq_last (r : Refreshed lease last good unhit) (hunhit : ∀ u ∈ unhit, u < stop)
    (hs : s ∈ good) (hlate : s + lease ≤ firstAfter s unhit stop) : s = last := by
  refine (r.kept s hs).resolve_right ?_
  rintro ⟨u, -, hin, hlt⟩
  exact absurd ((firstAfter_lt_iff hunhit).mpr (Or.inr ⟨u, hin, hlt⟩)) (Nat.not_lt.mpr hlate)

/-- If all attempts between a refresh and one that is not hit are hit, the latter succeeds if and
only if it comes before the lease runs out. -/
theorem gap (r : Refreshed lease last good unhit) (hs : s ∈ good) (hu : u ∈ unhit) (hlt : s < u)
    (hhit : ∀ u' ∈ unhit, s < u' → u ≤ u') : u ∈ good ↔ u < s + lease := by
  constructor
  · intro hgood
    rcases r.kept s hs with rfl | ⟨u', -, hin, hlt', hsoon⟩
    · exact absurd hlt (Nat.not_lt.mpr (r.le u hgood))
    · exact Nat.lt_of_le_of_lt (hhit u' hin hlt') hsoon
  · intro hsoon
    refine (r.missed u hu).resolve_right fun hlate => ?_
    have hle := r.le s hs
    omega

/-- At an earlier moment the last refresh was the same one, or the lease had not run out, because it
has been refreshed later. -/
theorem earlier {last' now : Nat} {good' unhit' newer : List Nat}
    (r : Refreshed lease last (newer ++ good') unhit) (r' : Refreshed lease last' good' unhit')
    (hnewer : ∀ s ∈ newer, now ≤ s) : last' = last ∨ now < last' + lease := by
  refine (r.kept last' (List.mem_append_right _ r'.mem)).imp id ?_
  rintro ⟨u, hgood, -, hlt, hsoon⟩
  rcases List.mem_append.mp hgood with hu | hu
  · exact Nat.lt_of_le_of_lt (hnewer u hu) hsoon
  · exact absurd hlt (Nat.not_lt.mpr (r'.le u hu))

end Refreshed

/-! ### What is seen of a keeper and its lease -/

namespace Occurrence

/-- A renewal of a keeper succeeds. -/
def renews (k : Nat) (o : Occurrence) : Bool := (o.completion? k).any Except.isOk

/-- A renewal of a keeper fails. -/
def misses (k : Nat) (o : Occurrence) : Bool := (o.completion? k).any (!·.isOk)

/-- A renewal of a keeper begins, and no injected failure of the store hits it. -/
def isUnhit (q k : Nat) (o : Occurrence) : Bool :=
  o.begins k && (o.before.plant.stores[q]?).all fun s => s.faults.renewals = 0

variable {o : Occurrence} {q k : Nat}

/-- Nothing is seen of a keeper with an event that is no step of a renewal. -/
theorem unseen (q : Nat) (h : o.renewal? k = none) :
    o.begins k = false ∧ o.renews k = false ∧ o.isUnhit q k = false := by
  have hbegins : o.begins k = false := by
    rw [begins, h]
    rfl
  refine ⟨hbegins, ?_, ?_⟩
  · rw [renews, completion?, h]
    rfl
  · rw [isUnhit, hbegins]
    rfl

/-- A renewal begins with an event and is completed with it. -/
theorem seen {result : Except Queue.Failure Queue.Reply}
    (h : o.renewal? k = some (true, .ended result)) :
    o.begins k = true ∧ o.completion? k = some result ∧ o.renews k = result.isOk := by
  have hcompletion : o.completion? k = some result := by
    rw [completion?, h]
    rfl
  refine ⟨?_, hcompletion, ?_⟩
  · rw [begins, h]
    rfl
  · rw [renews, hcompletion]
    rfl

end Occurrence

namespace World

/-- A keeper is given its time: the clock goes on from the first millisecond at which a renewal is
due only after the renewal, and the renewal meets no throttling. It may be hit by an injected
failure. -/
def GivesTime (q k : Nat) (w : World) : Event → Prop
  | .advance millis =>
    ∀ e ∈ w.plant.keeper? k, ∀ due ∈ e.due?, millis ≤ Rehearsal.Stage.ceilMillis due
  | .keeper n => n = k → ∀ s ∈ w.plant.stores[q]?, s.faults.throttles = 0
  | _ => True

/-- What may happen while a keeper is at work: it is given its time, and nobody else makes a request
that concerns its lease. -/
def LeavesAlone (q k receipt : Nat) (w : World) (event : Event) : Prop :=
  w.OnlyKeeper q k (·.Concerns receipt) event ∧ w.GivesTime q k event

instance (q k : Nat) (w : World) (event : Event) : Decidable (w.GivesTime q k event) :=
  match event with
  | .advance millis => inferInstanceAs (Decidable (∀ e ∈ w.plant.keeper? k, ∀ due ∈ e.due?,
      millis ≤ Rehearsal.Stage.ceilMillis due))
  | .keeper n => inferInstanceAs (Decidable (n = k → ∀ s ∈ w.plant.stores[q]?,
      s.faults.throttles = 0))
  | .cancel _ | .inject .. | .observe _ | .keep .. | .stop _ | .leave _ | .board | .join _
  | .assign .. | .move .. | .drop _ => isTrue trivial

instance (q k receipt : Nat) (w : World) (event : Event) :
    Decidable (w.LeavesAlone q k receipt event) :=
  inferInstanceAs (Decidable (_ ∧ _))

/-- Only the steps of a keeper are renewals of it. -/
theorem renewal?_of_ne {w : World} {event : Event} {k : Nat} (hne : event ≠ .keeper k) :
    w.renewal? k event = none := by
  cases event with
  | keeper n => exact if_neg fun hn : n = k => hne (hn ▸ rfl)
  | _ => rfl

end World

/-- The moments at which the lease of a keeper has been refreshed, the last one first: its start and
the renewals that have succeeded. -/
def refreshMoments (k start : Nat) (since : List Occurrence) : List Nat :=
  moments (·.renews k) since ++ [start]

theorem refreshMoments_cons (k start : Nat) (o : Occurrence) (since : List Occurrence) :
    refreshMoments k start (o :: since)
      = if o.renews k then o.before.plant.now :: refreshMoments k start since
        else refreshMoments k start since := by
  rw [refreshMoments, moments_cons_eq_ite]
  split <;> rfl

/-! ### A keeper at work -/

/-- A keeper has been at work since its start, and has begun `n` renewals. The last refresh of the
lease was at `last`.

- `keeper`, `errand`: the keeper waits for the next renewal of the lease;
- `waits`, `begun_le`: the next one is not overdue, and the last one is not ahead;
- `begun`: the renewals have begun as the timetable says;
- `ended`: none of them is in progress;
- `recent`, `refreshed`: the lease was refreshed in time, up to the last refresh;
- `standing`: it stands as the last refresh says. -/
structure AtWork (q k : Nat) (d : Delivery) (m : Message) (lease period start n last : Nat)
    (since : List Occurrence) (w : World) : Prop where
  keeper : ∃ keeper ∈ w.plant.keeping? k, keeper.stopped = false ∧ keeper.period = period ∧
    keeper.phase = .waiting (start + (n + 1) * period)
  errand : ∃ handle, handle.store = q ∧ w.plant.KeepsFor k handle d
  waits : w.plant.now ≤ start + (n + 1) * period
  begun_le : start + n * period ≤ w.plant.now
  begun : moments (·.begins k) since = timetable start period n
  ended : ∀ o ∈ since, o.begins k = true → (o.completion? k).isSome = true
  recent : last ≤ start + n * period
  refreshed : Refreshed lease last (refreshMoments k start since) (moments (·.isUnhit q k) since)
  standing : w.Tenured q lease d.receipt m (last + lease) since

/-- A keeper that waits, and has not been told to stop, begins a renewal when it is due. If the renewal
is completed at once, it waits for the next one. -/
theorem Plant.KeeperStep.begins {p p' : Plant} {e : KeeperEntry} {due : Nat}
    (st : p.KeeperStep e p') (free : e.keeper.stopped = false)
    (waiting : e.keeper.phase = .waiting due) :
    due ≤ p.now ∧ ∃ p₁ progress keeper, p.stepCall false e.renewal .go = some (p₁, progress) ∧
      p' = p₁.onKeeper e.number (.withKeeper keeper) ∧
      ∀ result, progress = .ended result → keeper.stopped = false ∧
        keeper.period = e.keeper.period ∧
        keeper.phase = .waiting (Lease.nextDue e.keeper.period due p.now) := by
  cases st with
  | ended _ told => cases told.symm.trans free
  | continued renewing => cases renewing.symm.trans waiting
  | begun waiting' _ reached made =>
    cases waiting'.symm.trans waiting
    refine ⟨reached, _, _, _, made, rfl, ?_⟩
    rintro (f | reply) rfl <;> exact ⟨free, rfl, rfl⟩

/-- A keeper that waits, and has not been told to stop, goes on waiting when it makes no step, or it
is told to stop. -/
theorem Plant.Passes.stays {p p' : Plant} {k due : Nat} {keeper : Lease.Keeper Call}
    (ps : Plant.Passes k p p' none) (found : p.keeping? k = some keeper)
    (free : keeper.stopped = false) (waiting : keeper.phase = .waiting due)
    (hlt : k < p.numbered) (later : p.numbered ≤ p'.numbered) :
    p'.Told k ∨ p'.keeping? k = some keeper := by
  cases ps with
  | idle idles =>
    rw [found] at idles
    generalize hafter : p'.keeping? k = after at idles
    cases idles with
    | same => exact Or.inr rfl
    | told =>
      refine Or.inl ⟨Nat.lt_of_lt_of_le hlt later, ?_⟩
      rw [hafter]
      rintro _ ⟨⟩
      rfl
    | gone ended =>
      rw [Lease.Keeper.hasEnded, waiting] at ended
      cases ended
  | started _ absent => cases found.symm.trans absent
  | ended found' told =>
    cases found'.symm.trans found
    cases told.symm.trans free

/-- The clock does not pass by the moment at which the next renewal is due. -/
theorem World.now_le_due {q k due : Nat} {w w' : World} {event : Event}
    {keeper : Lease.Keeper Call} (happens : w.step event = some w')
    (given : w.GivesTime q k event) (hkeeper : w.plant.keeping? k = some keeper)
    (free : keeper.stopped = false) (waiting : keeper.phase = .waiting due)
    (whole : ∃ j, due = j * nanosPerMilli) (hle : w.plant.now ≤ due) : w'.plant.now ≤ due := by
  by_cases hclock : ∀ millis, event ≠ .advance millis
  · rw [World.step_now happens hclock]
    exact hle
  · obtain ⟨millis, rfl⟩ := not_forall_not.mp hclock
    obtain ⟨e, found, rfl⟩ := Option.map_eq_some_iff.mp hkeeper
    obtain ⟨j, rfl⟩ := whole
    have hdue : e.due? = some (j * nanosPerMilli) := by
      simp [KeeperEntry.due?, waiting, free]
    have hmillis := given e found _ hdue
    cases World.step_cases happens with
    | advanced => exact Lease.le_of_le_ceilMillis hmillis

namespace AtWork
variable {q k lease period start n last : Nat} {d : Delivery} {m : Message}
  {since : List Occurrence} {w w' : World} {event : Event}

/-- Attempts that were not hit are attempts of the timetable. -/
theorem exists_of_unhit (a : AtWork q k d m lease period start n last since w) {u : Nat}
    (hu : u ∈ moments (·.isUnhit q k) since) : ∃ j < n, start + (j + 1) * period = u := by
  obtain ⟨o, ho, hunhit, hnow⟩ := mem_moments.mp hu
  have hbegins : o.begins k = true := (Bool.and_eq_true_iff.mp hunhit).1
  rw [← mem_timetable, ← a.begun]
  exact mem_moments.mpr ⟨o, ho, hbegins, hnow⟩

theorem le_of_unhit (a : AtWork q k d m lease period start n last since w) {u : Nat}
    (hu : u ∈ moments (·.isUnhit q k) since) : u ≤ start + n * period := by
  obtain ⟨j, hj, rfl⟩ := a.exists_of_unhit hu
  exact Nat.add_le_add_left (Nat.mul_le_mul_right _ hj) _

/-- Whatever else happens, the keeper goes on waiting, or it is told to stop. -/
theorem aside (a : AtWork q k d m lease period start n last since w)
    (ko : w.plant.KeepersOrderly) (happens : w.step event = some w')
    (allowed : w.LeavesAlone q k d.receipt event)
    (whole : ∃ j, start + (n + 1) * period = j * nanosPerMilli) (hne : event ≠ .keeper k) :
    w'.plant.Told k ∨
      AtWork q k d m lease period start n last (⟨w, event, w'⟩ :: since) w' := by
  obtain ⟨keeper, hkeeper, hfree, hperiod, hphase⟩ := a.keeper
  obtain ⟨handle, hstore, errand⟩ := a.errand
  have hforward := World.now_le_step happens
  have hnone : w.renewal? k event = none := World.renewal?_of_ne hne
  have ps := World.step_passing ko happens k
  rw [hnone] at ps
  have hcases := ps.stays hkeeper hfree hphase errand.1 (World.step_numbered_le happens)
  refine hcases.imp id fun hkeeper' => ?_
  obtain ⟨hbegins, hrenews, hunhit⟩ := Occurrence.unseen (o := ⟨w, event, w'⟩) q hnone
  refine ⟨⟨keeper, hkeeper', hfree, hperiod, hphase⟩,
    ⟨handle, hstore, World.step_keepsFor happens errand⟩, ?waits,
    Nat.le_trans a.begun_le hforward, ?moments, ?completed, a.recent, ?refreshes, ?standing⟩
  case waits => exact World.now_le_due happens allowed.2 hkeeper hfree hphase whole a.waits
  case moments =>
    rw [moments_cons_of_not hbegins]
    exact a.begun
  case completed =>
    refine List.forall_mem_cons.mpr ⟨fun h => ?_, a.ended⟩
    rw [hbegins] at h
    cases h
  case refreshes =>
    rw [refreshMoments, moments_cons_of_not hrenews, moments_cons_of_not hunhit]
    exact a.refreshed
  case standing =>
    exact a.standing.step happens (World.step_avoids ko happens allowed.1 hne) fun _ _ => id

/-- The step of a keeper at work: a renewal begins when it is due, and is completed at once. -/
theorem step_keeper (a : AtWork q k d m lease period start n last since w)
    (happens : w.step (.keeper k) = some w') (allowed : w.LeavesAlone q k d.receipt (.keeper k)) :
    ∃ s ∈ w.plant.stores[q]?, ∃ s' ∈ w'.plant.stores[q]?, ∃ result,
      w.plant.now = start + (n + 1) * period ∧
      Store.Step w.plant.now s (.attempt (.renew d)) s' (some (.answered result)) ∧
      w.renewal? k (.keeper k) = some (true, .ended result) ∧
      ∃ keeper ∈ w'.plant.keeping? k, keeper.stopped = false ∧ keeper.period = period ∧
        keeper.phase = .waiting (start + (n + 1 + 1) * period) := by
  obtain ⟨keeper, hkeeper, hfree, hperiod, hphase⟩ := a.keeper
  obtain ⟨handle, hstore, errand⟩ := a.errand
  obtain ⟨s, hs, -⟩ := a.standing
  obtain ⟨e, found, rfl⟩ := Option.map_eq_some_iff.mp hkeeper
  obtain ⟨hmem, hnumber⟩ := Plant.mem_of_keeper? found
  obtain ⟨hhandle, hdelivery⟩ := errand.2 e hmem hnumber
  cases World.step_cases happens with
  | @kept _ p' made =>
    obtain ⟨e', found', st⟩ := Plant.stepKeeper_cases made
    cases found'.symm.trans found
    obtain ⟨reached, p₁, progress, keeper, went, rfl, next⟩ := st.begins hfree hphase
    obtain ⟨s₀, s', hs₀, st, rfl⟩ := Plant.stepCall_cases went
    have hthere : e.renewal.handle.store = q := by
      show e.handle.store = q
      rw [hhandle, hstore]
    rw [hthere] at hs₀
    cases hs₀.symm.trans hs
    have hrequest : e.renewal.request = .renew d := by
      show Request.renew e.delivery = _
      rw [hdelivery]
    obtain ⟨result, rfl, done⟩ := st.of_renewal hrequest (allowed.2 rfl s hs)
    obtain ⟨hfree', hperiod', hphase'⟩ := next result rfl
    have hnow : w.plant.now = start + (n + 1) * period := Nat.le_antisymm a.waits reached
    have hrenewal : w.renewal? k (.keeper k) = some (true, .ended result) := by
      have hcall : e.call? = some e.renewal := by simp [KeeperEntry.call?, hphase, hfree]
      rw [World.renewal?_of_call found hcall went, Lease.Keeper.isRenewing, hphase]
      rfl
    have hnext : Lease.nextDue e.keeper.period (start + (n + 1) * period) w.plant.now
        = start + (n + 1 + 1) * period := by
      have hpunctual : w.plant.now < start + (n + 1) * period + nanosPerMilli := by
        rw [hnow]
        exact Nat.lt_add_of_pos_right (by decide)
      rw [Lease.nextDue_of_lt hpunctual, hperiod, Nat.add_assoc, ← Nat.succ_mul]
    have hs' := Plant.stores_withStore hs s'
    rw [← hthere] at hs'
    have found₁ : (w.plant.withStore e.renewal.handle.store s').keeper? k = some e := found
    refine ⟨s, hs, s', hthere ▸ hs', result, hnow, done, hrenewal, keeper, ?_, hfree',
      hperiod'.trans hperiod, hphase'.trans (congrArg _ hnext)⟩
    rw [Plant.keeping?, hnumber, Option.mem_def,
      Plant.keeper?_onKeeper_self (KeeperEntry.withKeeper_number _) found₁]
    rfl

/-- A renewal of a keeper at work: the keeper waits for the next one. -/
theorem renewed (a : AtWork q k d m lease period start n last since w)
    (happens : w.step (.keeper k) = some w') (allowed : w.LeavesAlone q k d.receipt (.keeper k))
    (hpos : 0 < period) :
    ∃ last', AtWork q k d m lease period start (n + 1) last'
      (⟨w, .keeper k, w'⟩ :: since) w' := by
  obtain ⟨s, hs, s', hs', result, hnow, st, hrenewal, keeper⟩ := a.step_keeper happens allowed
  obtain ⟨handle, hstore, errand⟩ := a.errand
  obtain ⟨s₀, hs₀, o, old, hlease, tenure⟩ := a.standing
  cases hs₀.symm.trans hs
  have hnow' : w'.plant.now = w.plant.now := World.step_now happens nofun
  obtain ⟨expiry, attempted, tenure'⟩ := tenure.renewal o old (allowed.2 rfl s hs) st
  rw [World.redelivered_cons (.keeper k) hs hs'] at tenure'
  obtain ⟨hbegins, hcompletion, hrenews⟩ := Occurrence.seen (o := ⟨w, .keeper k, w'⟩) hrenewal
  have hunhit : (⟨w, .keeper k, w'⟩ : Occurrence).isUnhit q k = decide (s.faults.renewals = 0) := by
    rw [Occurrence.isUnhit, hbegins]
    show Option.all _ w.plant.stores[q]? = _
    rw [hs]
    rfl
  have hlate : start + n * period < w.plant.now := by
    rw [hnow, Nat.succ_mul]
    omega
  subst hlease
  obtain ⟨last', hlast', rfl, refreshed⟩ := a.refreshed.attempt attempted
    (Nat.lt_of_le_of_lt a.recent hlate) fun u hu =>
      Nat.le_trans (a.le_of_unhit hu) (Nat.le_of_lt hlate)
  refine ⟨last', keeper, ⟨handle, hstore, World.step_keepsFor happens errand⟩, ?_,
    Nat.le_of_eq (hnow'.trans hnow).symm, ?_, ?_, hnow ▸ hlast', ?_, s', hs', o.step st,
    Nat.lt_of_lt_of_le old st.receipts_le, st.name_lease.2, hnow' ▸ tenure'⟩
  · rw [hnow', hnow]
    exact Nat.add_le_add_left (Nat.mul_le_mul_right _ (Nat.le_succ _)) _
  · rw [moments_cons hbegins, a.begun, timetable_succ]
    exact congrArg (· :: _) hnow
  · refine List.forall_mem_cons.mpr ⟨fun _ => ?_, a.ended⟩
    rw [hcompletion]
    rfl
  · rw [refreshMoments_cons, moments_cons_eq_ite, hrenews, hunhit]
    simpa only [decide_eq_true_eq] using refreshed

end AtWork

/-! ### From the start on -/

/-- With an event a keeper starts, just as its message has been delivered:

- `started`: it waits for its first renewal of the delivery;
- `whole`: its period is some whole milliseconds;
- `received`: the lease has been granted just now. -/
structure Occurrence.TakesUp (q k : Nat) (d : Delivery) (m : Message) (lease period : Nat)
    (o : Occurrence) : Prop where
  started : ∃ handle, handle.store = q ∧
    o.after.plant.keeper? k = some ⟨k, handle, d, .start period o.after.plant.now, false⟩
  whole : ∃ millis, 0 < millis ∧ period = millis * nanosPerMilli
  received : ∃ s ∈ o.after.plant.stores[q]?, ⟨d.receipt, m, o.after.plant.now + lease⟩ ∈ s.held

section
variable {stores : List Store} {may : World → Event → Prop} {past later earlier : List Occurrence}
  {o : Occurrence} {w : World} {q k lease period : Nat} {name : String} {d : Delivery} {m : Message}

theorem Occurrence.TakesUp.period_pos (t : o.TakesUp q k d m lease period) : 0 < period := by
  obtain ⟨millis, hmillis, hperiod⟩ := t.whole
  rw [hperiod]
  exact Nat.mul_pos hmillis (by decide)

/-- What is on record has led to a run. -/
theorem Run.exists_after (run : Run stores may past w) (hpast : past = later ++ o :: earlier) :
    Run stores may (o :: earlier) o.after := by
  obtain ⟨before, allowed, happens⟩ := run.exists_before hpast
  exact .step o.event before allowed happens

/-- A keeper that has been told to stop stays so. -/
theorem Run.told (run : Run stores may past w) (hpast : past = later ++ o :: earlier)
    (told : o.before.plant.Told k) : w.plant.Told k := by
  obtain ⟨before, -, happens⟩ := run.exists_before hpast
  refine run.since (P := fun _ v => v.plant.Told k) hpast ?_ ?_
  · exact (World.step_told before.keepersOrderly happens told).1
  · exact fun ko happens told => (World.step_told ko happens told).1

/-- Later events find a clock that does not show less. -/
theorem Run.le_now (run : Run stores may past w) (hpast : past = later ++ o :: earlier) :
    ∀ o' ∈ later, o.before.plant.now ≤ o'.before.plant.now := by
  intro o' ho'
  obtain ⟨newer, older, rfl⟩ := List.append_of_mem ho'
  have hsplit : past = newer ++ o' :: (older ++ o :: earlier) := by
    rw [hpast, List.append_assoc]
    rfl
  obtain ⟨before, -, -⟩ := run.exists_before hsplit
  exact before.now_le o (List.mem_append_right _ List.mem_cons_self)

/-- A keeper that has just started is at work. -/
theorem AtWork.begin (run : Run stores may (o :: earlier) o.after)
    (hq : stores[q]? = some (.empty name lease)) (t : o.TakesUp q k d m lease period) :
    AtWork q k d m lease period o.after.plant.now 0 o.after.plant.now [] o.after := by
  have ko := run.keepersOrderly
  obtain ⟨handle, hstore, found⟩ := t.started
  obtain ⟨s, hs, hheld⟩ := t.received
  obtain ⟨s₀, hs₀, dated⟩ := run.dated hq
  cases hs₀.symm.trans hs
  have hstart : (.start period o.after.plant.now : Lease.Keeper Call).phase
      = .waiting (o.after.plant.now + (0 + 1) * period) := by
    rw [Lease.Keeper.start, if_neg (Nat.ne_of_gt t.period_pos), Nat.zero_add, Nat.one_mul]
  have hkeeping : o.after.plant.keeping? k = some (.start period o.after.plant.now) := by
    rw [Plant.keeping?, found]
    rfl
  have hfree : (.start period o.after.plant.now : Lease.Keeper Call).stopped = false ∧
      (.start period o.after.plant.now : Lease.Keeper Call).period = period := ⟨rfl, rfl⟩
  refine ⟨⟨_, hkeeping, hfree.1, hfree.2, hstart⟩, ⟨handle, hstore, ko.keepsFor found⟩,
    Nat.le_add_right _ _, ?_, rfl, List.forall_mem_nil _, Nat.le_add_right _ _, .start _ _,
    ⟨s, hs, dated.orderly, dated.orderly.receipts_lt _ hheld, dated.lasting, .held hheld ?_⟩⟩
  · exact Nat.le_of_eq (by rw [Nat.zero_mul, Nat.add_zero])
  · rintro ⟨o', ho', -⟩
    cases ho'

/-- A keeper that has started is at work until it is told to stop, as long as it is left alone. -/
theorem Run.atWork {since : List Occurrence} (run : Run stores may (since ++ o :: earlier) w)
    (hq : stores[q]? = some (.empty name lease)) (t : o.TakesUp q k d m lease period)
    (undisturbed : ∀ o' ∈ since, o'.before.LeavesAlone q k d.receipt o'.event) :
    w.plant.Told k ∨
      ∃ n last, AtWork q k d m lease period o.after.plant.now n last since w := by
  have hwhole : ∀ n, ∃ j, o.after.plant.now + (n + 1) * period = j * nanosPerMilli := by
    intro n
    obtain ⟨millis, -, hperiod⟩ := t.whole
    obtain ⟨m₀, hm₀⟩ := (run.exists_after rfl).exists_millis
    refine ⟨m₀ + (n + 1) * millis, ?_⟩
    rw [hm₀, hperiod, ← Nat.mul_assoc, ← Nat.add_mul]
  refine run.since (P := fun since v =>
    (∀ o' ∈ since, o'.before.LeavesAlone q k d.receipt o'.event) → v.plant.Told k ∨
      ∃ n last, AtWork q k d m lease period o.after.plant.now n last since v) rfl ?_ ?_ undisturbed
  · exact fun _ => Or.inr ⟨0, _, .begin (run.exists_after rfl) hq t⟩
  · intro since v event v' ko happens before undisturbed
    obtain ⟨allowed, undisturbed⟩ := List.forall_mem_cons.mp undisturbed
    rcases before undisturbed with told | ⟨n, last, a⟩
    · exact Or.inl (World.step_told ko happens told).1
    · by_cases hevent : event = .keeper k
      · subst hevent
        exact Or.inr ⟨n + 1, a.renewed happens allowed t.period_pos⟩
      · exact (a.aside ko happens allowed (hwhole n) hevent).imp id fun a => ⟨n, last, a⟩

end

end Leasework
