import Leasework.Lease.Keeper
import Leasework.Lease.Period
import Leasework.Rehearsal.Stage

/-!
# `Leasework.Proofs.Lease.Period`: a renewal comes in time

Clocks show whole milliseconds, so a renewal begins up to a millisecond after it was due.
`add_milli_le_lease` says that a lease of at least four whole milliseconds has room for that:
the time between two renewals and one millisecond more fit into it. `nextDue_of_lt` says that
such a delay is never carried over to the next renewal.

`Span.toNanos_times?` and `Span.toNanos_part` bring the arithmetic of spans down to that of
numbers. `renewalPeriod_exact` says what it comes to for every lease: three quarters of its
nanoseconds, rounded down, or a fault exactly where three times the lease is out of range.
-/

set_option autoImplicit false

namespace Leasework

/-! ### Lengths of time -/

namespace Span

/-- Two spans of one length are one span: less than a second is left for the nanoseconds. -/
theorem eq_of_toNanos {a b : Span} (h : a.toNanos = b.toNanos) : a = b := by
  have ha := a.nanos_lt
  have hb := b.nanos_lt
  obtain ⟨secs, nanos, _, _⟩ := a
  obtain ⟨secs', nanos', _, _⟩ := b
  simp only [toNanos, nanosPerSecond] at h ha hb
  obtain rfl : secs = secs' := by omega
  obtain rfl : nanos = nanos' := by omega
  rfl

/-- A product that fits is the product of the lengths. -/
theorem toNanos_times? {s t : Span} {k : Nat} (h : s.times? k = some t) :
    t.toNanos = s.toNanos * k := by
  simp only [times?] at h
  split at h
  · cases h
    show (s.secs * k + s.nanos * k / nanosPerSecond) * nanosPerSecond
      + s.nanos * k % nanosPerSecond = (s.secs * nanosPerSecond + s.nanos) * k
    have hcarry := Nat.div_add_mod (s.nanos * k) nanosPerSecond
    rw [Nat.mul_comm] at hcarry
    rw [Nat.add_mul, Nat.add_assoc, hcarry, Nat.add_mul, Nat.mul_right_comm]
  · cases h

/-- A product fits exactly if its length in seconds needs no more than 64 bits. -/
theorem exists_times?_iff {s : Span} {k : Nat} :
    (∃ t, s.times? k = some t) ↔ s.toNanos * k < 18446744073709551616 * nanosPerSecond := by
  -- The carry of the nanoseconds is what the whole product has in seconds beyond the others.
  have hcoarse : s.toNanos * k / nanosPerSecond = s.secs * k + s.nanos * k / nanosPerSecond := by
    have hsplit : s.toNanos * k = s.nanos * k + s.secs * k * nanosPerSecond := by
      unfold toNanos
      rw [Nat.add_mul, Nat.mul_right_comm, Nat.add_comm]
    rw [hsplit, Nat.add_mul_div_right _ _ (by decide), Nat.add_comm]
  rw [← Nat.div_lt_iff_lt_mul (by decide), hcoarse]
  by_cases hfits : s.secs * k + s.nanos * k / nanosPerSecond < 18446744073709551616
  · simp only [times?, dif_pos hfits]
    exact ⟨fun _ => hfits, fun _ => ⟨_, rfl⟩⟩
  · simp only [times?, dif_neg hfits]
    exact ⟨nofun, fun h => absurd h hfits⟩

/-- A part is the part of the length, rounded down. -/
theorem toNanos_part (s : Span) {k : Nat} (hk : 0 < k) : (s.part k).toNanos = s.toNanos / k := by
  -- What is left of the seconds is less than `k`, so the nanoseconds stay below a second.
  have hfine : s.nanos / k + (s.secs % k * nanosPerSecond + s.nanos % k) / k
      = (s.secs % k * nanosPerSecond + s.nanos) / k := by
    have hsplit : s.secs % k * nanosPerSecond + s.nanos
        = s.secs % k * nanosPerSecond + s.nanos % k + s.nanos / k * k := by
      rw [Nat.add_assoc, Nat.mod_add_div']
    rw [hsplit, Nat.add_mul_div_right _ _ hk, Nat.add_comm]
  have hlt : (s.secs % k * nanosPerSecond + s.nanos) / k < nanosPerSecond := by
    have hrest := Nat.mod_lt s.secs hk
    have hnanos : s.nanos < nanosPerSecond := s.nanos_lt
    rw [Nat.div_lt_iff_lt_mul hk]
    calc s.secs % k * nanosPerSecond + s.nanos
        < s.secs % k * nanosPerSecond + nanosPerSecond := Nat.add_lt_add_left hnanos _
      _ = (s.secs % k + 1) * nanosPerSecond := (Nat.succ_mul _ _).symm
      _ ≤ k * nanosPerSecond := Nat.mul_le_mul_right _ hrest
      _ = nanosPerSecond * k := Nat.mul_comm _ _
  show s.secs / k * nanosPerSecond
    + (s.nanos / k + (s.secs % k * nanosPerSecond + s.nanos % k) / k) % nanosPerSecond
    = (s.secs * nanosPerSecond + s.nanos) / k
  rw [hfine, Nat.mod_eq_of_lt hlt]
  have hwhole : s.secs * nanosPerSecond + s.nanos
      = s.secs % k * nanosPerSecond + s.nanos + s.secs / k * nanosPerSecond * k := by
    have hsecs := Nat.mod_add_div' s.secs k
    calc s.secs * nanosPerSecond + s.nanos
        = (s.secs % k + s.secs / k * k) * nanosPerSecond + s.nanos := by rw [hsecs]
      _ = s.secs % k * nanosPerSecond + s.nanos + s.secs / k * nanosPerSecond * k := by
          rw [Nat.add_mul, Nat.mul_right_comm, Nat.add_right_comm]
  rw [hwhole, Nat.add_mul_div_right _ _ hk, Nat.add_comm]

/-- The longer of two spans has the greater length. -/
theorem toNanos_max (a b : Span) : (a.max b).toNanos = Max.max a.toNanos b.toNanos := by
  unfold max
  split <;> omega

end Span

namespace Lease

/-! ### The time between two renewals -/

/-- Three quarters of a lease, and a millisecond at least. -/
theorem toNanos_renewalPeriod {lease period : Span} (h : renewalPeriod lease = .ok period) :
    period.toNanos = max (lease.toNanos * 3 / 4) nanosPerMilli := by
  unfold renewalPeriod at h
  split at h
  · cases h
  · rename_i tripled htripled
    cases h
    have hshortest : shortestPeriod.toNanos = nanosPerMilli := rfl
    rw [Span.toNanos_max, Span.toNanos_part _ (by decide), Span.toNanos_times? htripled,
      hshortest]

/-- A lease can be renewed exactly if three times the lease fits. -/
theorem exists_renewalPeriod_iff {lease : Span} :
    (∃ period, renewalPeriod lease = .ok period)
      ↔ lease.toNanos * 3 < 18446744073709551616 * nanosPerSecond := by
  rw [← Span.exists_times?_iff]
  unfold renewalPeriod
  split
  · rename_i hnone
    rw [hnone]
    exact ⟨nofun, nofun⟩
  · rename_i tripled hsome
    exact ⟨fun _ => ⟨tripled, hsome⟩, fun _ => ⟨_, rfl⟩⟩

/-- The only fault is that three times the lease does not fit. -/
theorem renewalPeriod_eq_error_iff {lease : Span} {fault : SpanFault} :
    renewalPeriod lease = .error fault
      ↔ 18446744073709551616 * nanosPerSecond ≤ lease.toNanos * 3 := by
  rw [← Nat.not_lt, ← exists_renewalPeriod_iff]
  cases hperiod : renewalPeriod lease with
  | error fault' =>
    cases fault
    cases fault'
    simp
  | ok period => simp

/-- The time between two renewals is exact, whatever seconds and nanoseconds a lease has.

* There is none exactly for a lease of which three times the nanoseconds are `2 ^ 64` seconds or
  more.
* For every other lease it is three quarters of the nanoseconds, rounded down, or a million if
  that is more.
* A lease that is no longer has a time that is no longer, and none only if the longer one has
  none.
* A lease of a millisecond or more is not shorter than that time, and any longer lease is longer
  than it. -/
theorem renewalPeriod_exact :
    (∀ lease : Span, renewalPeriod lease = .error .productOverflow
      ↔ 18446744073709551616 * 1000000000 ≤ 3 * lease.toNanos) ∧
    (∀ lease period : Span, renewalPeriod lease = .ok period
      ↔ 3 * lease.toNanos < 18446744073709551616 * 1000000000 ∧
        period.toNanos = max (3 * lease.toNanos / 4) 1000000) ∧
    (∀ shorter longer period : Span, shorter.toNanos ≤ longer.toNanos →
      renewalPeriod longer = .ok period →
      ∃ period', renewalPeriod shorter = .ok period' ∧ period'.toNanos ≤ period.toNanos) ∧
    ∀ lease period : Span, renewalPeriod lease = .ok period →
      (1000000 ≤ lease.toNanos → period.toNanos ≤ lease.toNanos) ∧
      (1000000 < lease.toNanos → period.toNanos < lease.toNanos) := by
  have fits (lease : Span) : (∃ period, renewalPeriod lease = .ok period)
      ↔ 3 * lease.toNanos < 18446744073709551616 * 1000000000 := by
    rw [exists_renewalPeriod_iff, Nat.mul_comm]
    rfl
  have length {lease period : Span} (h : renewalPeriod lease = .ok period) :
      period.toNanos = max (3 * lease.toNanos / 4) 1000000 := by
    rw [toNanos_renewalPeriod h, Nat.mul_comm]
    rfl
  refine ⟨fun lease => ?_, fun lease period => ⟨fun h => ⟨(fits lease).mp ⟨_, h⟩, length h⟩, ?_⟩,
    fun shorter longer period hle h => ?_, fun lease period h => ?_⟩
  · rw [renewalPeriod_eq_error_iff, Nat.mul_comm lease.toNanos]
    rfl
  · rintro ⟨hfits, hlength⟩
    -- There is a time of that length, and no other span has the length.
    obtain ⟨period', h⟩ := (fits lease).mpr hfits
    rw [h, Span.eq_of_toNanos ((length h).trans hlength.symm)]
  · have hlonger := (fits longer).mp ⟨_, h⟩
    obtain ⟨period', h'⟩ := (fits shorter).mpr (by omega)
    refine ⟨period', h', ?_⟩
    rw [length h, length h']
    omega
  · rw [length h]
    omega

/-- A nanosecond more than the longest lease, and the lease faults. The longest lease has the longest
time between two renewals. That of a lease of thirty seconds is shorter, and than the lease too. -/
theorem renewalPeriod_exact_longestLease :
    renewalPeriod ⟨6148914691236517205, 333333334, by decide, by decide⟩ = .error .productOverflow ∧
      renewalPeriod ⟨6148914691236517205, 333333333, by decide, by decide⟩
        = .ok ⟨4611686018427387903, 999999999, by decide, by decide⟩ ∧
      ∃ period, renewalPeriod (.ofSecs 30) = .ok period ∧
        period.toNanos ≤ 4611686018427387903999999999 ∧
        period.toNanos < (Span.ofSecs 30).toNanos := by
  have longest : renewalPeriod ⟨6148914691236517205, 333333333, by decide, by decide⟩
      = .ok ⟨4611686018427387903, 999999999, by decide, by decide⟩ :=
    (renewalPeriod_exact.2.1 _ _).mpr ⟨by decide, by decide⟩
  obtain ⟨period, h, hle⟩ := renewalPeriod_exact.2.2.1 (.ofSecs 30) _ _ (by decide) longest
  exact ⟨(renewalPeriod_exact.1 _).mpr (by decide), longest, period, h, hle,
    (renewalPeriod_exact.2.2.2 _ _ h).2 (by decide)⟩

/-- Four whole milliseconds are enough: a renewal that is a millisecond late is in time. -/
theorem add_milli_le_lease {lease period : Span} {m : Nat} (h : renewalPeriod lease = .ok period)
    (hlease : lease.toNanos = m * nanosPerMilli) (hm : 4 ≤ m) :
    0 < period.toNanos ∧ period.toNanos + nanosPerMilli ≤ lease.toNanos := by
  have hperiod := toNanos_renewalPeriod h
  unfold nanosPerMilli at *
  omega

/-! ### When renewals are due -/

/-- A renewal that is less than a millisecond late does not move the next one. -/
theorem nextDue_of_lt {period due now : Nat} (h : now < due + nanosPerMilli) :
    nextDue period due now = due + period := by
  unfold nextDue tolerance
  rw [if_neg (by omega)]

/-- At the first millisecond that is not before a moment, that moment is less than a
millisecond ago. -/
theorem lt_of_le_ceilMillis {millis moment : Nat} (h : millis ≤ Rehearsal.Stage.ceilMillis moment) :
    millis * nanosPerMilli < moment + nanosPerMilli := by
  unfold Rehearsal.Stage.ceilMillis nanosPerMilli at *
  omega

/-- A moment that is a whole number of milliseconds is not passed by. -/
theorem le_of_le_ceilMillis {millis m : Nat}
    (h : millis ≤ Rehearsal.Stage.ceilMillis (m * nanosPerMilli)) :
    millis * nanosPerMilli ≤ m * nanosPerMilli := by
  have hlt := lt_of_le_ceilMillis h
  unfold nanosPerMilli at *
  omega

end Lease

end Leasework
