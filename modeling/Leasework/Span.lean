/-!
# `Leasework.Span`: lengths of time in seconds and nanoseconds

Leases, intervals and backoffs are written in seconds or milliseconds and kept as
a pair of whole seconds and nanoseconds. The seconds are a 64-bit number, so a
product may not fit: `Span.times?` answers `none` exactly there.

`Span.toNanos` is the one view every statement about spans goes through.
-/

set_option autoImplicit false

namespace Leasework

/-- The nanoseconds of one second. -/
def nanosPerSecond : Nat := 1000000000

/-- The nanoseconds of one millisecond. -/
def nanosPerMilli : Nat := 1000000

/-- A length of time: whole seconds that fit 64 bits, and the nanoseconds beyond them. -/
structure Span where
  /-- The whole seconds. -/
  secs : Nat
  /-- The nanoseconds beyond the whole seconds. -/
  nanos : Nat
  /-- The seconds fit 64 bits. -/
  secs_lt : secs < 18446744073709551616
  /-- The nanoseconds stay below a second. -/
  nanos_lt : nanos < 1000000000
deriving DecidableEq, Repr

namespace Span

/-- The whole length in nanoseconds. -/
def toNanos (s : Span) : Nat := s.secs * nanosPerSecond + s.nanos

/-- No time at all. -/
def zero : Span := ⟨0, 0, by decide, by decide⟩

/-- A number of whole seconds. -/
def ofSecs (n : UInt64) : Span := ⟨n.toNat, 0, n.toNat_lt, by decide⟩

/-- A number of milliseconds. -/
def ofMillis (n : UInt64) : Span :=
  ⟨n.toNat / 1000, n.toNat % 1000 * nanosPerMilli,
    Nat.lt_of_le_of_lt (Nat.div_le_self _ _) n.toNat_lt, by
      have := Nat.mod_lt n.toNat (show 0 < 1000 by decide)
      simp only [nanosPerMilli]; omega⟩

/-- The span of that many nanoseconds, when its seconds fit. -/
def ofNanos? (n : Nat) : Option Span :=
  if h : n / nanosPerSecond < 18446744073709551616 then
    some ⟨n / nanosPerSecond, n % nanosPerSecond, h, Nat.mod_lt _ (by decide)⟩
  else none

/-- `k` times as long, when the seconds still fit. The nanoseconds are multiplied
first and carry into the seconds. -/
def times? (s : Span) (k : Nat) : Option Span :=
  let fine := s.nanos * k
  let coarse := s.secs * k + fine / nanosPerSecond
  if h : coarse < 18446744073709551616 then
    some ⟨coarse, fine % nanosPerSecond, h, Nat.mod_lt _ (by decide)⟩
  else none

/-- The `k`-th part, rounded down to a nanosecond. The remainder of the seconds is
handed on to the nanoseconds; a zero divisor leaves nothing. -/
def part (s : Span) (k : Nat) : Span :=
  let fine := s.nanos / k + (s.secs % k * nanosPerSecond + s.nanos % k) / k
  ⟨s.secs / k, fine % nanosPerSecond,
    Nat.lt_of_le_of_lt (Nat.div_le_self _ _) s.secs_lt, Nat.mod_lt _ (by decide)⟩

/-- The longer of two spans. -/
def max (a b : Span) : Span := if a.toNanos ≤ b.toNanos then b else a

end Span

/-- A computation on spans that has no answer. -/
inductive SpanFault where
  /-- A product whose seconds need more than 64 bits. -/
  | productOverflow
deriving DecidableEq, Repr

/-- The wording of a span fault. -/
def SpanFault.message : SpanFault → String
  | .productOverflow => "overflow when multiplying duration by scalar"

end Leasework
