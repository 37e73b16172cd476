import Leasework.Proofs.Work.Iterations

/-!
# `Leasework.Proofs.Work.Record`: what a run has on record about its iterations

`Recorded` ties the iterations that are going on to those on record, and `Run.recorded` proves it
of every run in which nobody joins who is already at work. No two iterations have the same
number (`Enrolled`). An iteration is on record as sent exactly from the moment on from which only
its deletion is left, so it is never on record as sent twice, nor as deleted twice.

What becomes of an iteration after its response was accepted is `Undone`, unless it deletes its
request: the deletion fails, the iteration is dropped, or it goes on.

There are four lemmas for the step, one for each way in which the lists on record change:
iterations go on or are over (`Recorded.shed`), one begins, one sends, one deletes.
-/

set_option autoImplicit false

namespace Leasework

open Work (Iteration)

/-! ### What becomes of an iteration -/

/-- The iteration whose deletion fails with an event. -/
def Occurrence.undeleted? (o : Occurrence) : Option Iteration :=
  match o.settled? with
  | some (x, .delete, .error _) => some x
  | _ => none

/-- An iteration is dropped with an event: it was going on, it does not go on, and no consumer
has made a step. -/
def Occurrence.Drops (x : Iteration) (o : Occurrence) : Prop :=
  x ∈ o.before.iterations ∧ x ∉ o.after.iterations ∧ o.work? = none

/-- The request of an iteration has not been deleted: the deletion has failed, the iteration has
been dropped, or it goes on. -/
inductive Undone (past : List Occurrence) (w : World) (x : Iteration) : Prop
  | failed {o : Occurrence} (on_record : o ∈ past) (fails : o.undeleted? = some x) : Undone past w x
  | dropped {o : Occurrence} (on_record : o ∈ past) (drops : o.Drops x) : Undone past w x
  | goingOn (there : x ∈ w.iterations) : Undone past w x

section
variable {past : List Occurrence} {w w' : World} {o : Occurrence} {x : Iteration}

theorem begun_cons (o : Occurrence) (past : List Occurrence) :
    begun (o :: past) = o.begun?.toList ++ begun past := by
  rw [begun, List.filterMap_cons]
  cases o.begun? <;> rfl

theorem deleted_cons (o : Occurrence) (past : List Occurrence) :
    deleted (o :: past) = o.deleted?.toList ++ deleted past := by
  rw [deleted, List.filterMap_cons]
  cases o.deleted? <;> rfl

theorem World.mem_iterations : x ∈ w.iterations ↔ ∃ b, (x, b) ∈ w.stages := by
  unfold iterations
  rw [List.mem_map]
  constructor
  · rintro ⟨⟨_, b⟩, hmem, rfl⟩
    exact ⟨b, hmem⟩
  · rintro ⟨b, hmem⟩
    exact ⟨_, hmem, rfl⟩

/-- Iterations that are over are missing among those that go on. -/
theorem World.iterations_left {gone rest : List (Iteration × Bool)}
    (before : w.stages.Perm (gone ++ rest)) (after : w'.stages.Perm rest) :
    w.iterations.Perm (gone.map Prod.fst ++ w'.iterations) := by
  refine (before.map Prod.fst).trans ?_
  rw [List.map_append]
  exact (after.symm.map Prod.fst).append_left _

/-! ### Numbers -/

/-- No number is given out twice:

- `begun_lt`, `begun_nodup`: every iteration that has begun has a number of its own;
- `ongoing`, `numbers`: what goes on has begun, and goes on once. -/
structure Enrolled (past : List Occurrence) (w : World) : Prop where
  begun_lt : ∀ x ∈ begun past, x.number < w.plant.numbered
  begun_nodup : ((begun past).map Iteration.number).Nodup
  ongoing : ∀ x ∈ w.iterations, x ∈ begun past
  numbers : (w.iterations.map Iteration.number).Nodup

namespace Enrolled

theorem not_mem_of_left {gone rest : List Iteration} (e : Enrolled past w)
    (left : w.iterations.Perm (gone ++ rest)) (hx : x ∈ gone) : x ∉ rest := by
  have hnumbers := (left.map Iteration.number).nodup_iff.mp e.numbers
  rw [List.map_append] at hnumbers
  exact fun hrest => (List.nodup_append.mp hnumbers).2.2 _ (List.mem_map_of_mem hx) _
    (List.mem_map_of_mem hrest) rfl

/-- Some iterations are over, or none, and no other one begins. -/
theorem left {gone : List Iteration} (e : Enrolled past w)
    (left : w.iterations.Perm (gone ++ w'.iterations))
    (later : w.plant.numbered ≤ w'.plant.numbered) (unbegun : o.begun? = none) :
    Enrolled (o :: past) w' := by
  have hb : begun (o :: past) = begun past := List.filterMap_cons_none unbegun
  have hnumbers := (left.map Iteration.number).nodup_iff.mp e.numbers
  rw [List.map_append] at hnumbers
  exact
    { begun_lt := fun x hx => Nat.lt_of_lt_of_le (e.begun_lt x (hb ▸ hx)) later
      begun_nodup := hb ▸ e.begun_nodup
      ongoing := fun x hx => hb ▸ e.ongoing x (left.mem_iff.mpr (List.mem_append_right _ hx))
      numbers := (List.nodup_append.mp hnumbers).2.1 }

theorem not_begun (e : Enrolled past w) (new : x.number = w.plant.numbered) :
    x ∉ begun past :=
  fun hx => Nat.lt_irrefl _ (new ▸ e.begun_lt x hx)

/-- An iteration begins, with a number that no other has had. -/
theorem began (e : Enrolled past w) (after : w'.iterations.Perm (x :: w.iterations))
    (new : x.number = w.plant.numbered) (next : w'.plant.numbered = w.plant.numbered + 1)
    (begins : o.begun? = some x) : Enrolled (o :: past) w' := by
  have hb : begun (o :: past) = x :: begun past := List.filterMap_cons_some begins
  have hfresh : x.number ∉ (begun past).map Iteration.number := by
    intro hmem
    obtain ⟨y, hy, heq⟩ := List.mem_map.mp hmem
    have hlt := e.begun_lt y hy
    omega
  refine
    { begun_lt := ?_
      begun_nodup := ?_
      ongoing := ?_
      numbers := ?_ }
  · rw [hb, next]
    refine List.forall_mem_cons.mpr ⟨by omega, fun y hy => ?_⟩
    exact Nat.lt_succ_of_lt (e.begun_lt y hy)
  · rw [hb, List.map_cons]
    exact List.nodup_cons.mpr ⟨hfresh, e.begun_nodup⟩
  · rw [hb]
    intro y hy
    rcases List.mem_cons.mp (after.mem_iff.mp hy) with rfl | hy
    · exact List.mem_cons_self
    · exact List.mem_cons_of_mem _ (e.ongoing y hy)
  · refine (after.map _).nodup_iff.mpr (List.nodup_cons.mpr ⟨fun hmem => hfresh ?_, e.numbers⟩)
    obtain ⟨y, hy, heq⟩ := List.mem_map.mp hmem
    exact List.mem_map.mpr ⟨y, e.ongoing y hy, heq⟩

end Enrolled

/-! ### Iterations and the record -/

/-- The iterations that are going on agree with the record:

- `unsent`, `deleting`: before its response is accepted an iteration is not on record as sent, and
  after it is, and not as deleted;
- `sent_begun`, `deleted_sent`: an iteration begins, sends and deletes in this order;
- `sent_nodup`, `deleted_nodup`: it sends once, and deletes once;
- `undone`: a request whose response was accepted has been deleted, or it is known why not. -/
structure Recorded (past : List Occurrence) (w : World) : Prop extends Enrolled past w where
  unsent : ∀ x, (x, false) ∈ w.stages → x ∉ sent past
  deleting : ∀ x, (x, true) ∈ w.stages → x ∈ sent past ∧ x ∉ deleted past
  sent_begun : ∀ x ∈ sent past, x ∈ begun past
  sent_nodup : (sent past).Nodup
  deleted_sent : ∀ x ∈ deleted past, x ∈ sent past
  deleted_nodup : (deleted past).Nodup
  undone : ∀ x ∈ sent past, x ∉ deleted past → Undone past w x

namespace Recorded

/-- An iteration at the head of those that are going on is not among the others. -/
theorem ne_of_perm {b b' : Bool} {y : Iteration} {rest : List (Iteration × Bool)}
    (r : Recorded past w) (before : w.stages.Perm ((x, b) :: rest)) (hy : (y, b') ∈ rest) :
    y ≠ x := by
  rintro rfl
  have left : w.iterations.Perm ([y] ++ rest.map Prod.fst) := before.map Prod.fst
  exact r.not_mem_of_left left (List.mem_singleton_self y) (List.mem_map_of_mem hy)

/-- What is undone stays so with an event that leaves it where it is. -/
theorem undone_cons (h : Undone past w x) (o : Occurrence)
    (hthere : x ∈ w.iterations → Undone (o :: past) w' x) : Undone (o :: past) w' x := by
  cases h with
  | failed on_record fails => exact .failed (List.mem_cons_of_mem _ on_record) fails
  | dropped on_record drops => exact .dropped (List.mem_cons_of_mem _ on_record) drops
  | goingOn there => exact hthere there

/-- Some iterations are over, or none. Those whose responses were accepted are undone. -/
theorem shed (r : Recorded past w) (gone : List (Iteration × Bool))
    {rest : List (Iteration × Bool)} (before : w.stages.Perm (gone ++ rest))
    (after : w'.stages.Perm rest) (later : w.plant.numbered ≤ w'.plant.numbered)
    (unbegun : o.begun? = none) (hsent : o.sent? = none) (hdeleted : o.deleted? = none)
    (hgone : ∀ x, (x, true) ∈ gone → Undone (o :: past) w' x) : Recorded (o :: past) w' := by
  have left := World.iterations_left before after
  have hb : begun (o :: past) = begun past := List.filterMap_cons_none unbegun
  have hs : sent (o :: past) = sent past := List.filterMap_cons_none hsent
  have hd : deleted (o :: past) = deleted past := List.filterMap_cons_none hdeleted
  have hmem : ∀ {stage}, stage ∈ w'.stages → stage ∈ w.stages := fun h =>
    before.mem_iff.mpr (List.mem_append_right _ (after.mem_iff.mp h))
  refine
    { r.toEnrolled.left left later unbegun with
      unsent := fun x hx => hs ▸ r.unsent x (hmem hx)
      deleting := fun x hx => hs ▸ hd ▸ r.deleting x (hmem hx)
      sent_begun := fun x hx => hb ▸ r.sent_begun x (hs ▸ hx)
      sent_nodup := hs ▸ r.sent_nodup
      deleted_sent := fun x hx => hs ▸ r.deleted_sent x (hd ▸ hx)
      deleted_nodup := hd ▸ r.deleted_nodup
      undone := ?_ }
  rw [hs, hd]
  intro x hx hnot
  refine undone_cons (r.undone x hx hnot) o fun there => ?_
  -- It is over now, or it still goes on.
  rcases List.mem_append.mp (left.mem_iff.mp there) with hover | hon
  · obtain ⟨⟨y, b⟩, hstage, rfl⟩ := List.mem_map.mp hover
    cases b with
    | true => exact hgone y hstage
    | false =>
      exact absurd hx (r.unsent y (before.mem_iff.mpr (List.mem_append_left _ hstage)))
  · exact .goingOn hon

/-- An iteration begins, and is not on record as sent. -/
theorem began (r : Recorded past w) (after : w'.stages.Perm ((x, false) :: w.stages))
    (new : x.number = w.plant.numbered) (next : w'.plant.numbered = w.plant.numbered + 1)
    (begins : o.begun? = some x) (quiet : o.settled? = none) : Recorded (o :: past) w' := by
  have hafter : w'.iterations.Perm (x :: w.iterations) := after.map Prod.fst
  have hb : begun (o :: past) = x :: begun past := List.filterMap_cons_some begins
  have hs : sent (o :: past) = sent past :=
    List.filterMap_cons_none (by rw [Occurrence.sent?, quiet])
  have hd : deleted (o :: past) = deleted past :=
    List.filterMap_cons_none (by rw [Occurrence.deleted?, quiet])
  have hcases : ∀ {y b}, (y, b) ∈ w'.stages → (y, b) = (x, false) ∨ (y, b) ∈ w.stages :=
    fun h => List.mem_cons.mp (after.mem_iff.mp h)
  refine
    { r.toEnrolled.began hafter new next begins with
      unsent := ?_
      deleting := ?_
      sent_begun := ?_
      sent_nodup := hs ▸ r.sent_nodup
      deleted_sent := fun y hy => hs ▸ r.deleted_sent y (hd ▸ hy)
      deleted_nodup := hd ▸ r.deleted_nodup
      undone := ?_ }
  · rw [hs]
    intro y hy
    rcases hcases hy with heq | hy
    · -- What has been sent had begun before.
      cases heq
      exact fun hsent => r.not_begun new (r.sent_begun _ hsent)
    · exact r.unsent y hy
  · rw [hs, hd]
    intro y hy
    rcases hcases hy with heq | hy
    · cases heq
    · exact r.deleting y hy
  · rw [hb, hs]
    exact fun y hy => List.mem_cons_of_mem _ (r.sent_begun y hy)
  · rw [hs, hd]
    exact fun y hy hnot => undone_cons (r.undone y hy hnot) o fun there =>
      .goingOn (hafter.mem_iff.mpr (List.mem_cons_of_mem _ there))

/-- The response of an iteration is accepted for the first time. -/
theorem sentOne {rest : List (Iteration × Bool)} (r : Recorded past w)
    (before : w.stages.Perm ((x, false) :: rest)) (after : w'.stages.Perm ((x, true) :: rest))
    (later : w.plant.numbered ≤ w'.plant.numbered) (unbegun : o.begun? = none)
    (hsent : o.sent? = some x) (hdeleted : o.deleted? = none) : Recorded (o :: past) w' := by
  -- The stage is another one, the iterations are the same.
  have same : w.iterations.Perm ([] ++ w'.iterations) :=
    (before.map Prod.fst).trans (after.map Prod.fst).symm
  have hb : begun (o :: past) = begun past := List.filterMap_cons_none unbegun
  have hs : sent (o :: past) = x :: sent past := List.filterMap_cons_some hsent
  have hd : deleted (o :: past) = deleted past := List.filterMap_cons_none hdeleted
  have hx : (x, false) ∈ w.stages := before.mem_iff.mpr List.mem_cons_self
  have hnew : x ∉ sent past := r.unsent x hx
  have hcases : ∀ {y b}, (y, b) ∈ w'.stages → (y, b) = (x, true) ∨ (y ≠ x ∧ (y, b) ∈ w.stages) := by
    intro y b hy
    refine (List.mem_cons.mp (after.mem_iff.mp hy)).imp id fun hy => ?_
    exact ⟨r.ne_of_perm before hy, before.mem_iff.mpr (List.mem_cons_of_mem _ hy)⟩
  have hthere : ∀ {y}, y ∈ w.iterations → Undone (o :: past) w' y :=
    fun hy => .goingOn (same.mem_iff.mp hy)
  refine
    { r.toEnrolled.left same later unbegun with
      unsent := ?_
      deleting := ?_
      sent_begun := ?_
      sent_nodup := hs ▸ List.nodup_cons.mpr ⟨hnew, r.sent_nodup⟩
      deleted_sent := ?_
      deleted_nodup := hd ▸ r.deleted_nodup
      undone := ?_ }
  · -- Only the iteration itself is new on record, and it is before its deletion now.
    rw [hs]
    intro y hy hmem
    rcases hcases hy with heq | ⟨hne, hy⟩
    · cases heq
    · exact (List.mem_cons.mp hmem).elim hne (r.unsent y hy)
  · rw [hs, hd]
    intro y hy
    rcases hcases hy with heq | ⟨-, hy⟩
    · cases heq
      exact ⟨List.mem_cons_self, fun hmem => hnew (r.deleted_sent _ hmem)⟩
    · exact ⟨List.mem_cons_of_mem _ (r.deleting y hy).1, (r.deleting y hy).2⟩
  · rw [hb, hs]
    exact List.forall_mem_cons.mpr
      ⟨r.ongoing x (World.mem_iterations.mpr ⟨false, hx⟩), r.sent_begun⟩
  · rw [hs, hd]
    exact fun y hy => List.mem_cons_of_mem _ (r.deleted_sent y hy)
  · rw [hs, hd]
    refine List.forall_mem_cons.mpr ⟨fun _ => ?_, fun y hy hnot => ?_⟩
    · exact hthere (World.mem_iterations.mpr ⟨false, hx⟩)
    · exact undone_cons (r.undone y hy hnot) o hthere

/-- An iteration deletes its request, and is over. -/
theorem deletedOne {rest : List (Iteration × Bool)} (r : Recorded past w)
    (before : w.stages.Perm ((x, true) :: rest)) (after : w'.stages.Perm rest)
    (later : w.plant.numbered ≤ w'.plant.numbered) (unbegun : o.begun? = none)
    (hsent : o.sent? = none) (hdeleted : o.deleted? = some x) : Recorded (o :: past) w' := by
  have left : w.iterations.Perm ([x] ++ w'.iterations) :=
    World.iterations_left (show w.stages.Perm ([(x, true)] ++ rest) from before) after
  have hb : begun (o :: past) = begun past := List.filterMap_cons_none unbegun
  have hs : sent (o :: past) = sent past := List.filterMap_cons_none hsent
  have hd : deleted (o :: past) = x :: deleted past := List.filterMap_cons_some hdeleted
  obtain ⟨hxsent, hxnew⟩ := r.deleting x (before.mem_iff.mpr List.mem_cons_self)
  have hmem : ∀ {stage}, stage ∈ w'.stages → stage ∈ w.stages := fun h =>
    before.mem_iff.mpr (List.mem_cons_of_mem _ (after.mem_iff.mp h))
  refine
    { r.toEnrolled.left left later unbegun with
      unsent := fun y hy => hs ▸ r.unsent y (hmem hy)
      deleting := ?_
      sent_begun := fun y hy => hb ▸ r.sent_begun y (hs ▸ hy)
      sent_nodup := hs ▸ r.sent_nodup
      deleted_sent := ?_
      deleted_nodup := hd ▸ List.nodup_cons.mpr ⟨hxnew, r.deleted_nodup⟩
      undone := ?_ }
  · rw [hs, hd]
    intro y hy
    obtain ⟨hysent, hynot⟩ := r.deleting y (hmem hy)
    refine ⟨hysent, fun hmem => ?_⟩
    exact (List.mem_cons.mp hmem).elim (r.ne_of_perm before (after.mem_iff.mp hy)) hynot
  · rw [hs, hd]
    exact List.forall_mem_cons.mpr ⟨hxsent, r.deleted_sent⟩
  · rw [hs, hd]
    intro y hy hnot
    obtain ⟨hne, hnot⟩ := not_or.mp (mt List.mem_cons.mpr hnot)
    refine undone_cons (r.undone y hy hnot) o fun there => .goingOn ?_
    rcases List.mem_append.mp (left.mem_iff.mp there) with hy | hon
    · exact absurd (List.mem_singleton.mp hy) hne
    · exact hon

end Recorded

/-! ### Runs -/

theorem Recorded.step (r : Recorded past w) {event : Event} (h : w.step event = some w')
    (idle : event.JoinsIdle) : Recorded (⟨w, event, w'⟩ :: past) w' := by
  have hlater := World.step_numbered_le h
  have hfirst : (⟨w, event, w'⟩ : Occurrence) ∈ (⟨w, event, w'⟩ : Occurrence) :: past :=
    List.mem_cons_self
  cases World.step_passes h idle with
  | left before after unworked unbegun =>
    have hquiet : (⟨w, event, w'⟩ : Occurrence).settled? = none := by
      rw [Occurrence.settled?, unworked]
      rfl
    refine r.shed _ before after hlater unbegun (by rw [Occurrence.sent?, hquiet])
      (by rw [Occurrence.deleted?, hquiet]) fun x hx => .dropped hfirst ?_
    exact ⟨World.mem_iterations.mpr ⟨true, before.mem_iff.mpr (List.mem_append_left _ hx)⟩,
      r.not_mem_of_left (World.iterations_left before after) (List.mem_map_of_mem hx), unworked⟩
  | began after new next begins quiet => exact r.began after new next begins quiet
  | went same unbegun quiet =>
    exact r.shed [] same.symm (.refl _) hlater unbegun
      (by rw [Occurrence.sent?, quiet]) (by rw [Occurrence.deleted?, quiet]) (by simp)
  | sent before after unbegun settles =>
    exact r.sentOne before after hlater unbegun (by rw [Occurrence.sent?, settles])
      (by rw [Occurrence.deleted?, settles])
  | unsent same unbegun settles =>
    exact r.shed [] same.symm (.refl _) hlater unbegun
      (by rw [Occurrence.sent?, settles]) (by rw [Occurrence.deleted?, settles]) (by simp)
  | @deleted x rest result before after unbegun settles =>
    cases result with
    | ok reply =>
      exact r.deletedOne before after hlater unbegun (by rw [Occurrence.sent?, settles])
        (by rw [Occurrence.deleted?, settles])
    | error f =>
      refine r.shed [(x, true)] before after hlater unbegun
        (by rw [Occurrence.sent?, settles]) (by rw [Occurrence.deleted?, settles]) fun y hy => ?_
      cases List.mem_singleton.mp hy
      exact .failed hfirst (by rw [Occurrence.undeleted?, settles])
  | @returned x rest _ before after unbegun settles =>
    exact r.shed [(x, false)] before after hlater unbegun
      (by rw [Occurrence.sent?, settles]) (by rw [Occurrence.deleted?, settles])
      fun y hy => by cases List.mem_singleton.mp hy
  | @crashed x rest before after unbegun quiet =>
    exact r.shed [(x, false)] before after hlater unbegun
      (by rw [Occurrence.sent?, quiet]) (by rw [Occurrence.deleted?, quiet])
      fun y hy => by cases List.mem_singleton.mp hy

/-- The iterations agree with the record in every run in which nobody joins at work. -/
theorem Run.recorded {stores : List Queue.Store} {may : World → Event → Prop}
    (run : Run stores may past w) (idle : ∀ w event, may w event → event.JoinsIdle) :
    Recorded past w := by
  induction run with
  | start =>
    exact
      { begun_lt := List.forall_mem_nil _
        begun_nodup := List.nodup_nil
        ongoing := List.forall_mem_nil _
        numbers := List.nodup_nil
        unsent := fun x hx => by cases hx
        deleting := fun x hx => by cases hx
        sent_begun := List.forall_mem_nil _
        sent_nodup := List.nodup_nil
        deleted_sent := List.forall_mem_nil _
        deleted_nodup := List.nodup_nil
        undone := List.forall_mem_nil _ }
  | step event _ allowed happens ih => exact ih.step happens (idle _ _ allowed)

/-! ### Iterations that are over -/

/-- The iterations that are over, in whatever way. -/
def ended (past : List Occurrence) : List Iteration :=
  past.flatMap fun o => o.before.iterations.filter (· ∉ o.after.iterations)

/-- An iteration begins with an event, or those that go on went on before. -/
theorem Occurrence.Passes.iterations (ps : o.Passes) :
    (o.begun? = none ∧ ∀ x ∈ o.after.iterations, x ∈ o.before.iterations) ∨
      ∃ x, o.begun? = some x ∧ o.after.iterations.Perm (x :: o.before.iterations) ∧
        x.number = o.before.plant.numbered := by
  have hback : ∀ {l l'}, o.before.iterations.Perm l → o.after.iterations.Perm l' →
      (∀ x ∈ l', x ∈ l) → ∀ x ∈ o.after.iterations, x ∈ o.before.iterations :=
    fun before after hsub x hx => before.mem_iff.mpr (hsub x (after.mem_iff.mp hx))
  cases ps with
  | began after new next begins quiet => exact Or.inr ⟨_, begins, after.map _, new⟩
  | left before after unworked unbegun =>
    refine Or.inl ⟨unbegun, hback (before.map _) (after.map _) fun x hx => ?_⟩
    rw [List.map_append]
    exact List.mem_append_right _ hx
  | went same unbegun | unsent same unbegun =>
    exact Or.inl ⟨unbegun, hback (.refl _) (same.map _) fun _ hx => hx⟩
  | @sent x rest text reply before after unbegun =>
    have hsame : ((x, true) :: rest).map Prod.fst = ((x, false) :: rest).map Prod.fst := rfl
    exact Or.inl ⟨unbegun, hback (before.map _) (after.map _) fun _ hx => hsame ▸ hx⟩
  | deleted before after unbegun | returned before after unbegun | crashed before after unbegun =>
    exact Or.inl ⟨unbegun, hback (before.map _) (after.map _)
      fun _ hx => List.mem_cons_of_mem _ hx⟩

/-- The iterations that are going on are those that have begun and are not over. -/
theorem Run.mem_iterations {stores : List Queue.Store} {may : World → Event → Prop}
    (run : Run stores may past w) (idle : ∀ w event, may w event → event.JoinsIdle)
    (x : Iteration) :
    (x ∈ ended past → x ∈ begun past) ∧
      (x ∈ w.iterations ↔ x ∈ begun past ∧ x ∉ ended past) := by
  induction run with
  | start => exact ⟨nofun, iff_of_false nofun fun h => nomatch h.1⟩
  | @step past w w' event before allowed happens ih =>
    obtain ⟨hended, hgoing⟩ := ih
    have hsplit : ended (⟨w, event, w'⟩ :: past)
        = w.iterations.filter (· ∉ w'.iterations) ++ ended past := List.flatMap_cons
    rw [hsplit, begun_cons, List.mem_append, List.mem_append, List.mem_filter, decide_eq_true_iff]
    rcases (World.step_passes happens (idle _ _ allowed)).iterations with
      ⟨unbegun, hback⟩ | ⟨y, begins, hperm, new⟩
    · rw [unbegun]
      simp only [Option.toList_none, List.not_mem_nil, false_or]
      refine ⟨fun hover => hover.elim (fun h => (hgoing.mp h.1).1) hended, fun h => ?_,
        fun ⟨hx, hnot⟩ => ?_⟩
      · obtain ⟨hx, hnot⟩ := hgoing.mp (hback x h)
        exact ⟨hx, fun hover => hover.elim (fun hgone => hgone.2 h) hnot⟩
      · by_contra hgone
        exact hnot (Or.inl ⟨hgoing.mpr ⟨hx, fun h => hnot (Or.inr h)⟩, hgone⟩)
    · have hx : x ∈ w'.iterations ↔ x = y ∨ x ∈ w.iterations := by
        rw [hperm.mem_iff, List.mem_cons]
      -- No iteration that is over had the number of the new one.
      have hnew : x = y → x ∉ ended past := by
        rintro rfl hover
        exact (before.recorded idle).not_begun new (hended hover)
      -- Nothing is over where something begins.
      rw [or_iff_right fun h => h.2 (hx.mpr (Or.inr h.1)), begins, Option.toList_some,
        List.mem_singleton, hx, hgoing]
      refine ⟨fun hover => Or.inr (hended hover), fun h => ?_, fun ⟨h, hnot⟩ => ?_⟩
      · exact h.elim (fun heq => ⟨Or.inl heq, hnew heq⟩) fun h => ⟨Or.inr h.1, h.2⟩
      · exact h.imp_right fun h => ⟨h, hnot⟩

end

end Leasework
