import Leasework.Queue.Retry

/-!
# `Leasework.Proofs.Queue.Schedule`: when attempts are made, and what comes of them

Here the attempts of a call are put on a timetable that knows no cancellation: the first is due at
once, and every other one a backoff after the one before it is over. A cancellation, or an attempt
that is not made again, only cuts the timetable short. `runFrom_reached` follows the call from
attempt to attempt along it, and `keepsSchedule` says that what the call does is read off it,
whichever of a cancellation and the end of a rest is noticed first.

The attempts may share a state. It can be a record of the attempts that were made, so what is
said about it is said about them.
-/

set_option autoImplicit false

namespace Leasework.Queue

/-! ### Rests -/

/-- A rest that is left with the cancellation is left when that comes, or at once if it was there
before. -/
theorem wakesAt_of_leavesCanceled {cancelAt : Option Nat} {notice : Notice} {begun ends : Nat}
    (hle : begun ≤ ends) (h : leavesCanceled cancelAt notice begun ends = true) :
    ∃ c, cancelAt = some c ∧ c ≤ ends ∧ wakesAt cancelAt begun ends = max c begun := by
  cases cancelAt with
  | none => simp [leavesCanceled, canceledBy] at h
  | some c =>
    have passed : c ≤ max begun (min c ends) := by
      simp only [leavesCanceled, wakesAt, canceledBy, Bool.and_eq_true] at h
      exact of_decide_eq_true h.1
    refine ⟨c, rfl, by omega, ?_⟩
    simp only [wakesAt]
    omega

/-- A rest that is not left with the cancellation lasts to its end. If the cancellation is there by
then, it came just then or the rest was none. -/
theorem wakesAt_of_not_leavesCanceled {cancelAt : Option Nat} {notice : Notice} {begun ends : Nat}
    (hle : begun ≤ ends) (h : leavesCanceled cancelAt notice begun ends = false) :
    wakesAt cancelAt begun ends = ends ∧
      ∀ c, cancelAt = some c → c ≤ ends → max c begun = ends := by
  cases cancelAt with
  | none => exact ⟨rfl, fun _ => nofun⟩
  | some c =>
    have unmoved : c ≤ max begun (min c ends) → ends ≤ max begun (min c ends) := by
      intro passed
      simp only [leavesCanceled, wakesAt, canceledBy, passed, decide_true, Bool.true_and,
        Bool.or_eq_false_iff] at h
      exact Nat.le_of_not_lt (of_decide_eq_false h.2)
    refine ⟨by simp only [wakesAt]; omega, ?_⟩
    rintro _ ⟨⟩ hc
    omega

namespace Retry

variable {σ α : Type} (p : Patience) (cancelAt : Option Nat)
  (attempt : (k now : Nat) → σ → σ × Attempt α) (s : σ)

/-! ### The timetable -/

/-- The state that an attempt finds and the moment at which it is due. -/
def arrival : Nat → σ × Nat
  | 0 => (s, 0)
  | k + 1 =>
    let (s, now) := arrival k
    let (s, made) := attempt k now s
    (s, now + made.takes + p.backoff)

/-- The moment at which an attempt is due. -/
def due (k : Nat) : Nat :=
  (arrival p attempt s k).2

/-- An attempt, made when it is due. -/
def made (k : Nat) : Attempt α :=
  (attempt k (due p attempt s k) (arrival p attempt s k).1).2

/-- The moment at which an attempt is over. -/
def overAt (k : Nat) : Nat :=
  due p attempt s k + (made p attempt s k).takes

/-- The first attempt is due at once. -/
theorem due_zero : due p attempt s 0 = 0 := rfl

/-- Every other attempt is due a backoff after the one before it is over. -/
theorem due_succ (k : Nat) : due p attempt s (k + 1) = overAt p attempt s k + p.backoff := rfl

/-- An attempt takes place if it is the first one or the one before it took place and was
throttled by a backend that is given another chance, and if the cancellation is not there when it
is due. -/
def TakesPlace : Nat → Prop
  | 0 => canceledBy cancelAt 0 = false
  | k + 1 => TakesPlace k ∧
      (∃ f, (made p attempt s k).outcome = .error f ∧ f.isThrottling = true) ∧
      p.retries = true ∧ canceledBy cancelAt (due p attempt s (k + 1)) = false

/-- How a call ends that made a number of attempts, by the timetable. -/
inductive Scheduled : (attempts : Nat) → Ending α → Prop where
  /-- The cancellation is there at the start, and there is no attempt at all. -/
  | unbegun (prevented : ¬ TakesPlace p cancelAt attempt s 0) :
      Scheduled 0 ⟨.error .canceled, [], 0⟩
  /-- The last attempt is not made again, and what it came to is the answer when it is over. -/
  | answered {k : Nat} (happened : TakesPlace p cancelAt attempt s k)
      (last : p.triesAgain (made p attempt s k).outcome = false) :
      Scheduled (k + 1) ⟨(made p attempt s k).outcome,
        (List.range (k + 1)).map (due p attempt s), overAt p attempt s k⟩
  /-- The last attempt would be made again, but the cancellation is there before that is due. -/
  | canceled {k c : Nat} (happened : TakesPlace p cancelAt attempt s k)
      (again : p.triesAgain (made p attempt s k).outcome = true)
      (prevented : ¬ TakesPlace p cancelAt attempt s (k + 1)) (comes : cancelAt = some c) :
      Scheduled (k + 1) ⟨.error .canceled,
        (List.range (k + 1)).map (due p attempt s), max c (overAt p attempt s k)⟩

variable {p cancelAt attempt s}

/-- An attempt is made again exactly if it is throttled and the handle is patient. -/
theorem triesAgain_iff {r : Except Failure α} :
    p.triesAgain r = true ↔
      (∃ f, r = .error f ∧ f.isThrottling = true) ∧ p.retries = true := by
  cases r with
  | ok a => simp [Patience.triesAgain]
  | error f => simp [Patience.triesAgain, and_comm]

/-- The next attempt takes place exactly if this one does and is made again, and the cancellation
is not there by then. -/
theorem takesPlace_succ_iff {k : Nat} :
    TakesPlace p cancelAt attempt s (k + 1) ↔
      TakesPlace p cancelAt attempt s k ∧ p.triesAgain (made p attempt s k).outcome = true ∧
        canceledBy cancelAt (due p attempt s (k + 1)) = false := by
  simp only [TakesPlace, triesAgain_iff, and_assoc]

/-- No attempt is left out. -/
theorem TakesPlace.of_le {j k : Nat} (h : TakesPlace p cancelAt attempt s k) (hle : j ≤ k) :
    TakesPlace p cancelAt attempt s j := by
  induction k with
  | zero => exact Nat.le_zero.mp hle ▸ h
  | succ k ih =>
    obtain rfl | hlt := Nat.eq_or_lt_of_le hle
    · exact h
    · exact ih h.1 (Nat.le_of_lt_succ hlt)

/-- The attempts of a scheduled ending are those that take place. -/
theorem Scheduled.takesPlace_iff {n : Nat} {e : Ending α}
    (h : Scheduled p cancelAt attempt s n e) (k : Nat) :
    TakesPlace p cancelAt attempt s k ↔ k < n := by
  have ofLast {last : Nat} (happened : TakesPlace p cancelAt attempt s last)
      (prevented : ¬ TakesPlace p cancelAt attempt s (last + 1)) :
      TakesPlace p cancelAt attempt s k ↔ k < last + 1 :=
    ⟨fun hk => Nat.lt_of_not_le fun hle => prevented (hk.of_le hle),
      fun hk => happened.of_le (Nat.le_of_lt_succ hk)⟩
  cases h with
  | unbegun prevented =>
    exact ⟨fun hk => absurd (hk.of_le (Nat.zero_le k)) prevented, fun hk => absurd hk (by omega)⟩
  | answered happened last =>
    exact ofLast happened fun next => by
      simpa [last] using (takesPlace_succ_iff.mp next).2.1
  | canceled happened again prevented comes => exact ofLast happened prevented

/-- There is one scheduled ending at most. -/
theorem Scheduled.unique {m n : Nat} {d e : Ending α} (hd : Scheduled p cancelAt attempt s m d)
    (he : Scheduled p cancelAt attempt s n e) : m = n ∧ d = e := by
  have hmn : m = n := by
    have hm := (hd.takesPlace_iff m).symm.trans (he.takesPlace_iff m)
    have hn := (hd.takesPlace_iff n).symm.trans (he.takesPlace_iff n)
    omega
  subst hmn
  refine ⟨rfl, ?_⟩
  cases hd with
  | unbegun => cases he with | unbegun => rfl
  | answered _ last =>
    cases he with
    | answered => rfl
    | canceled _ again => simp [last] at again
  | canceled _ again _ comes =>
    cases he with
    | answered _ last => simp [last] at again
    | canceled _ _ _ comes' =>
      cases comes.symm.trans comes'
      rfl

/-- Nothing throttled comes back through a patient handle. -/
theorem Scheduled.not_isThrottling {n : Nat} {e : Ending α}
    (h : Scheduled p cancelAt attempt s n e) (patient : p.retries = true) {f : Failure}
    (failed : e.result = .error f) : f.isThrottling = false := by
  cases h with
  | unbegun => cases failed; rfl
  | canceled => cases failed; rfl
  | answered _ last =>
    have hfailed : (made p attempt s _).outcome = .error f := failed
    simpa only [hfailed, Patience.triesAgain, patient, Bool.true_and] using last

/-! ### The call along its timetable -/

/-- A call is about to look for the cancellation before an attempt that is due. If the cancellation
is there, the call ends just as it would have ended during the rest. -/
def Reached (p : Patience) (cancelAt : Option Nat) (attempt : (k now : Nat) → σ → σ × Attempt α)
    (s : σ) : Nat → Prop
  | 0 => True
  | k + 1 => TakesPlace p cancelAt attempt s k ∧
      p.triesAgain (made p attempt s k).outcome = true ∧
      ∀ c, cancelAt = some c → c ≤ due p attempt s (k + 1) →
        max c (overAt p attempt s k) = due p attempt s (k + 1)

/-- An attempt that is reached takes place unless the cancellation is there. -/
theorem Reached.takesPlace {k : Nat} (h : Reached p cancelAt attempt s k)
    (uncanceled : canceledBy cancelAt (due p attempt s k) = false) :
    TakesPlace p cancelAt attempt s k := by
  cases k with
  | zero => exact uncanceled
  | succ k => exact takesPlace_succ_iff.mpr ⟨h.1, h.2.1, uncanceled⟩

/-- An attempt that is reached and finds the cancellation does not take place, and the call ends as
scheduled. -/
theorem Reached.prevented {k : Nat} (h : Reached p cancelAt attempt s k)
    (canceled : canceledBy cancelAt (due p attempt s k) = true) :
    ¬ TakesPlace p cancelAt attempt s k ∧
      Scheduled p cancelAt attempt s k ⟨.error .canceled,
        (List.range k).map (due p attempt s), due p attempt s k⟩ := by
  cases k with
  | zero =>
    have prevented : ¬ TakesPlace p cancelAt attempt s 0 := by
      simpa [TakesPlace, due_zero] using canceled
    exact ⟨prevented, .unbegun prevented⟩
  | succ k =>
    obtain ⟨happened, again, there⟩ := h
    have prevented : ¬ TakesPlace p cancelAt attempt s (k + 1) := fun next => by
      simpa [canceled] using (takesPlace_succ_iff.mp next).2.2
    obtain ⟨c, rfl⟩ : ∃ c, cancelAt = some c := by
      cases cancelAt with
      | none => simp [canceledBy] at canceled
      | some c => exact ⟨c, rfl⟩
    refine ⟨prevented, ?_⟩
    rw [← there c rfl (by simpa [canceledBy] using canceled)]
    exact .canceled happened again prevented rfl

/-- A call that has reached an attempt makes the attempts that take place, one after another. Where
it ends, it ends as scheduled, and where it does not, the fuel is spent on attempts. -/
theorem runFrom_reached (notices : Nat → Notice) (fuel k : Nat)
    (h : Reached p cancelAt attempt s k) :
    ∃ n ≤ k + fuel, (∀ j < n, TakesPlace p cancelAt attempt s j) ∧
      ((∃ e, Scheduled p cancelAt attempt s n e ∧
          runFrom p cancelAt attempt notices fuel k (due p attempt s k) (arrival p attempt s k).1
            ((List.range k).map (due p attempt s)) = ((arrival p attempt s n).1, some e)) ∨
        (n = k + fuel ∧
          runFrom p cancelAt attempt notices fuel k (due p attempt s k) (arrival p attempt s k).1
            ((List.range k).map (due p attempt s)) = ((arrival p attempt s n).1, none))) := by
  induction fuel generalizing k with
  | zero =>
    refine ⟨k, Nat.le_refl k, fun j hj => ?_, .inr ⟨rfl, rfl⟩⟩
    cases k with
    | zero => exact absurd hj (Nat.not_lt_zero j)
    | succ k => exact h.1.of_le (Nat.le_of_lt_succ hj)
  | succ fuel ih =>
    cases canceled : canceledBy cancelAt (due p attempt s k) with
    | true =>
      obtain ⟨prevented, scheduled⟩ := h.prevented canceled
      refine ⟨k, by omega, fun j hj => (scheduled.takesPlace_iff j).mpr hj,
        .inl ⟨_, scheduled, ?_⟩⟩
      simp only [runFrom, canceled, if_true]
    | false =>
      have happened := h.takesPlace canceled
      have earlier : ∀ j < k + 1, TakesPlace p cancelAt attempt s j :=
        fun j hj => happened.of_le (Nat.le_of_lt_succ hj)
      -- What the call does with an attempt is put in the words of the timetable once.
      have unfolded :
          runFrom p cancelAt attempt notices (fuel + 1) k (due p attempt s k)
              (arrival p attempt s k).1 ((List.range k).map (due p attempt s)) =
            if p.triesAgain (made p attempt s k).outcome then
              if leavesCanceled cancelAt (notices k) (overAt p attempt s k)
                  (due p attempt s (k + 1)) then
                ((arrival p attempt s (k + 1)).1, some ⟨.error .canceled,
                  (List.range (k + 1)).map (due p attempt s),
                  wakesAt cancelAt (overAt p attempt s k) (due p attempt s (k + 1))⟩)
              else
                runFrom p cancelAt attempt notices fuel (k + 1)
                  (wakesAt cancelAt (overAt p attempt s k) (due p attempt s (k + 1)))
                  (arrival p attempt s (k + 1)).1 ((List.range (k + 1)).map (due p attempt s))
            else
              ((arrival p attempt s (k + 1)).1, some ⟨(made p attempt s k).outcome,
                (List.range (k + 1)).map (due p attempt s), overAt p attempt s k⟩) := by
        rw [List.range_succ, List.map_append]
        simp only [runFrom, canceled, Bool.false_eq_true, if_false]
        rfl
      rw [unfolded]
      cases again : p.triesAgain (made p attempt s k).outcome with
      | false =>
        exact ⟨k + 1, by omega, earlier, .inl ⟨_, .answered happened again, rfl⟩⟩
      | true =>
        have hle : overAt p attempt s k ≤ due p attempt s (k + 1) := by
          rw [due_succ]
          exact Nat.le_add_right _ _
        cases left : leavesCanceled cancelAt (notices k) (overAt p attempt s k)
            (due p attempt s (k + 1)) with
        | true =>
          obtain ⟨c, rfl, passed, woken⟩ := wakesAt_of_leavesCanceled hle left
          have prevented : ¬ TakesPlace p (some c) attempt s (k + 1) := fun next => by
            simpa [canceledBy, passed] using (takesPlace_succ_iff.mp next).2.2
          refine ⟨k + 1, by omega, earlier,
            .inl ⟨_, .canceled happened again prevented rfl, ?_⟩⟩
          simp only [if_true, woken]
        | false =>
          obtain ⟨woken, there⟩ := wakesAt_of_not_leavesCanceled hle left
          obtain ⟨n, hle, hn, ends⟩ := ih (k + 1) ⟨happened, again, there⟩
          simp only [if_true, Bool.false_eq_true, if_false, woken]
          refine ⟨n, by omega, hn, ends.imp id fun ⟨hfuel, unended⟩ => ⟨by omega, unended⟩⟩

/-- A call keeps to its timetable, with whatever patience, whatever its attempts come to, however
long they take and whenever the cancellation comes.

* The attempts that are made are those that take place, each when it is due and in the state that
  the one before it left.
* The call ends exactly as scheduled, whatever is noticed first when a rest ends, and there is one
  such ending at most.
* It ends at all exactly if some attempt does not take place.
* A patient handle never hands a throttling on. -/
theorem keepsSchedule {σ α : Type} (p : Patience) (cancelAt : Option Nat)
    (attempt : (k now : Nat) → σ → σ × Attempt α) (s : σ) :
    (∀ notices fuel, ∃ n ≤ fuel, (∀ k < fuel, TakesPlace p cancelAt attempt s k ↔ k < n) ∧
      (runFrom p cancelAt attempt notices fuel 0 0 s []).1 = (arrival p attempt s n).1) ∧
    (∀ notices e, (∃ fuel, (runFrom p cancelAt attempt notices fuel 0 0 s []).2 = some e) ↔
      ∃ n, Scheduled p cancelAt attempt s n e) ∧
    (∀ m n d e, Scheduled p cancelAt attempt s m d → Scheduled p cancelAt attempt s n e →
      m = n ∧ d = e) ∧
    ((∃ n e, Scheduled p cancelAt attempt s n e) ↔ ∃ k, ¬ TakesPlace p cancelAt attempt s k) ∧
    ∀ n e, Scheduled p cancelAt attempt s n e → p.retries = true →
      ∀ f, e.result = .error f → f.isThrottling = false := by
  have played (notices : Nat → Notice) (fuel : Nat) :=
    runFrom_reached notices fuel 0 (show Reached p cancelAt attempt s 0 from trivial)
  -- An attempt that does not take place is the end, at the latest.
  have ends {k : Nat} (prevented : ¬ TakesPlace p cancelAt attempt s k) (notices : Nat → Notice) :
      ∃ n e, Scheduled p cancelAt attempt s n e ∧
        (runFrom p cancelAt attempt notices (k + 1) 0 0 s []).2 = some e := by
    obtain ⟨n, -, hn, ⟨e, scheduled, ended⟩ | ⟨rfl, -⟩⟩ := played notices (k + 1)
    · exact ⟨n, e, scheduled, congrArg Prod.snd ended⟩
    · exact absurd (hn k (by omega)) prevented
  -- An ending leaves an attempt that does not take place.
  have left {n : Nat} {e : Ending α} (scheduled : Scheduled p cancelAt attempt s n e) :
      ¬ TakesPlace p cancelAt attempt s n :=
    fun next => Nat.lt_irrefl n ((scheduled.takesPlace_iff n).mp next)
  refine ⟨fun notices fuel => ?_, fun notices e => ⟨?_, ?_⟩, fun _ _ _ _ => Scheduled.unique,
    ⟨?_, ?_⟩, fun _ _ scheduled patient _ => scheduled.not_isThrottling patient⟩
  · obtain ⟨n, hle, hn, ⟨e, scheduled, hrun⟩ | ⟨rfl, hrun⟩⟩ := played notices fuel
    · exact ⟨n, by omega, fun k _ => scheduled.takesPlace_iff k, congrArg Prod.fst hrun⟩
    · exact ⟨_, by omega, fun k hk => ⟨fun _ => by omega, hn k⟩,
        congrArg Prod.fst hrun⟩
  · rintro ⟨fuel, ended⟩
    obtain ⟨n, -, -, ⟨d, scheduled, hrun⟩ | ⟨-, hrun⟩⟩ := played notices fuel
    · cases (congrArg Prod.snd hrun).symm.trans ended
      exact ⟨n, scheduled⟩
    · cases (congrArg Prod.snd hrun).symm.trans ended
  · rintro ⟨n, scheduled⟩
    obtain ⟨m, d, scheduled', ended⟩ := ends (left scheduled) notices
    obtain ⟨-, rfl⟩ := scheduled.unique scheduled'
    exact ⟨_, ended⟩
  · rintro ⟨n, e, scheduled⟩
    exact ⟨n, left scheduled⟩
  · rintro ⟨k, prevented⟩
    obtain ⟨n, e, scheduled, -⟩ := ends prevented fun _ => .ending
    exact ⟨n, e, scheduled⟩

/-- A first attempt that takes three and is throttled, and a second one that takes four and
is served. -/
def throttledOnce : Nat → Attempt String
  | 0 => ⟨3, .error (.throttled "slow down")⟩
  | _ => ⟨4, .ok "served"⟩

/-- With a backoff of two, the second attempt is made at five. A cancellation at six does not keep
its answer back, and one at four prevents it. -/
theorem keepsSchedule_throttledOnce :
    (∃ fuel, run ⟨true, 2⟩ (some 6) throttledOnce (fun _ => .cancellation) fuel
      = some ⟨.ok "served", [0, 5], 9⟩) ∧
    (∃ fuel, run ⟨true, 2⟩ (some 4) throttledOnce (fun _ => .ending) fuel
      = some ⟨.error .canceled, [0], 4⟩) := by
  have served : Scheduled ⟨true, 2⟩ (some 6) (fun k _ s => (s, throttledOnce k)) () 2
      ⟨.ok "served", [0, 5], 9⟩ :=
    .answered (k := 1) ⟨rfl, ⟨_, rfl, rfl⟩, rfl, rfl⟩ rfl
  have first : TakesPlace ⟨true, 2⟩ (some 4) (fun k _ s => (s, throttledOnce k)) () 0 := rfl
  have prevented : Scheduled ⟨true, 2⟩ (some 4) (fun k _ s => (s, throttledOnce k)) () 1
      ⟨.error .canceled, [0], 4⟩ :=
    .canceled first rfl (fun next => Bool.noConfusion next.2.2.2) rfl
  exact ⟨((keepsSchedule _ _ _ _).2.1 _ _).mpr ⟨2, served⟩,
    ((keepsSchedule _ _ _ _).2.1 _ _).mpr ⟨1, prevented⟩⟩

end Retry

end Leasework.Queue
