import Leasework.Proofs.Host.Acceptance
import Leasework.Proofs.Lease.Period
import Leasework.Work.Consumer

/-!
# `Leasework.Proofs.Host.Serviceable`: settings that consumers can work with

Settings that pass the check are meant to be fit for use: consumers can be posted at the queue,
and renew its leases before they run out. `Queue.Settings.Serviceable` spells that out.

The time between two renewals is computed by way of three times the lease, and the check bounds
the lease of a polling queue only. `Queue.Settings.serviceable_iff` shows that this decides the
matter: accepted settings are serviceable exactly if three times their lease fits 64 bits of
seconds. That holds of every accepted polling queue, but not of every accepted broker queue, and
`not_serviceable_longLease` is a document of settings that says a lease which is too long.
-/

set_option autoImplicit false

namespace Leasework

namespace Queue.Settings

/-- Consumers can be posted at the queue, whatever queue takes their responses. They renew leases
now and then, and always before a lease runs out. -/
def Serviceable (s : Settings) : Prop :=
  ∀ requests responses board, ∃ post : Work.Post,
    Work.Post.between requests responses board s.lease = .ok post ∧
      0 < post.period ∧ post.period < s.lease.toNanos

/-- The lease in nanoseconds. -/
theorem toNanos_lease (s : Settings) :
    s.lease.toNanos = s.leaseSeconds.toNat * nanosPerSecond := by
  simp only [Span.toNanos, lease, Span.ofSecs, Nat.add_zero]

section
variable {s : Settings}

/-- Settings that are accepted have a lease. -/
theorem lease_pos (accepted : s.problem? = none) : 0 < s.leaseSeconds.toNat :=
  (problem?_eq_none_iff.mp accepted).lease

/-- The check bounds the lease of a polling queue. -/
theorem lease_le_of_polling (accepted : s.problem? = none) (polling : s.kind = .polling) :
    s.leaseSeconds.toNat ≤ longestPollingLease :=
  ((problem?_eq_none_iff.mp accepted).polling polling).1

/-- If a lease of accepted settings can be renewed at all, it is renewed in time. -/
theorem renewed_in_time (accepted : s.problem? = none) {period : Span}
    (h : Lease.renewalPeriod s.lease = .ok period) :
    0 < period.toNanos ∧ period.toNanos < s.lease.toNanos := by
  have hperiod := Lease.toNanos_renewalPeriod h
  have hpos := lease_pos accepted
  have hlease := toNanos_lease s
  -- A lease is a second at least, so the shortest period is shorter.
  unfold nanosPerSecond at hlease
  unfold nanosPerMilli at hperiod
  omega

/-- Accepted settings are serviceable exactly if their lease can be renewed. -/
theorem serviceable_iff_exists_period (accepted : s.problem? = none) :
    s.Serviceable ↔ ∃ period, Lease.renewalPeriod s.lease = .ok period := by
  constructor
  · intro serviceable
    obtain ⟨post, hpost, -⟩ := serviceable ⟨0, .none⟩ ⟨1, .none⟩ 0
    unfold Work.Post.between at hpost
    cases hperiod : Lease.renewalPeriod s.lease with
    | ok period => exact ⟨period, rfl⟩
    | error fault =>
      rw [hperiod] at hpost
      cases hpost
  · rintro ⟨period, hperiod⟩ requests responses board
    refine ⟨⟨requests, responses, board, period.toNanos⟩, ?_, renewed_in_time accepted hperiod⟩
    unfold Work.Post.between
    rw [hperiod]
    rfl

/-- A lease can be renewed exactly if three times its seconds fit 64 bits. -/
theorem exists_period_iff :
    (∃ period, Lease.renewalPeriod s.lease = .ok period)
      ↔ s.leaseSeconds.toNat * 3 < 18446744073709551616 := by
  rw [Lease.exists_renewalPeriod_iff, toNanos_lease, Nat.mul_right_comm,
    Nat.mul_lt_mul_right (by decide)]

/-- Accepted settings are serviceable exactly if three times their lease fits 64 bits of seconds.
Those of a polling queue always are. -/
theorem serviceable_iff (accepted : s.problem? = none) :
    (s.Serviceable ↔ s.leaseSeconds.toNat * 3 < 18446744073709551616) ∧
      (s.kind = .polling → s.Serviceable) := by
  have hserviceable := (serviceable_iff_exists_period accepted).trans exists_period_iff
  refine ⟨hserviceable, fun polling => hserviceable.mpr ?_⟩
  have hle := lease_le_of_polling accepted polling
  unfold longestPollingLease at hle
  omega

end

/-- The longest lease of a broker queue that can be renewed. -/
theorem serviceable_longestLease :
    (plain .broker "requests" "redis://queue:6379" 6148914691236517205).problem? = none ∧
      (plain .broker "requests" "redis://queue:6379" 6148914691236517205).Serviceable :=
  have accepted :
      (plain .broker "requests" "redis://queue:6379" 6148914691236517205).problem? = none := by
    decide
  ⟨accepted, (serviceable_iff accepted).1.mpr (by decide)⟩

end Queue.Settings

namespace Host.Settings

/-- The queues of settings that are loaded have passed the check. -/
theorem problem?_of_ofDocument {rules : ReadingRules} {d : Deployment} {vars : Variables}
    {doc : Document} {s : Settings} (h : ofDocument rules d vars doc = .ok s) :
    s.requests.problem? = none ∧ s.responses.problem? = none := by
  rw [Queue.Settings.problem?_eq_none_iff, Queue.Settings.problem?_eq_none_iff]
  exact acceptable_of_ofDocument h

/-- A broker queue in a document of settings. -/
def brokerQueue (name : String) (leaseSeconds : Int) : Document :=
  .table
    [("kind", .text "broker"), ("name", .text name), ("endpoint", .text "redis://queue:6379"),
      ("lease_seconds", .integer leaseSeconds)]

/-- A document of settings whose request queue has the longest lease that a settings file can
say. -/
def longLease : Document :=
  .table
    [("handler", .table [("name", .text "echo")]),
      ("queues",
        .table
          [("request", brokerQueue "requests" 9223372036854775807),
            ("response", brokerQueue "responses" 60)])]

/-- Settings with a very long lease are loaded, and nobody can be posted at their request
queue. -/
theorem not_serviceable_longLease :
    ∃ s, ofDocument .toml .production [] longLease = .ok s ∧ s.requests.problem? = none ∧
      ¬ s.requests.Serviceable := by
  have loaded : ofDocument .toml .production [] longLease = .ok _ := rfl
  refine ⟨_, loaded, ?_⟩
  have accepted := (problem?_of_ofDocument loaded).1
  refine ⟨accepted, fun serviceable => ?_⟩
  obtain ⟨period, hperiod⟩ := (Queue.Settings.serviceable_iff_exists_period accepted).mp serviceable
  -- Three times the lease is more than can be told.
  cases hperiod

end Host.Settings

end Leasework
