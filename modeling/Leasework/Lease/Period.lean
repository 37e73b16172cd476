import Leasework.Span

/-!
# `Leasework.Lease.Period`: how often a lease is renewed

A lease is renewed after three quarters of it, so that one late renewal still comes in
time. Very short leases are renewed every millisecond.
-/

set_option autoImplicit false

namespace Leasework.Lease

/-- The shortest time between two renewals. -/
def shortestPeriod : Span := .ofMillis 1

/-- The time between two renewals of a lease: three quarters of it, and a millisecond at
least. There is none for a lease so long that three times it cannot be told. -/
def renewalPeriod (lease : Span) : Except SpanFault Span :=
  match lease.times? 3 with
  | none => .error .productOverflow
  | some tripled => .ok ((tripled.part 4).max shortestPeriod)

end Leasework.Lease
