/-!
# `Leasework.Crew.Permits`: a pool of permits

Whoever runs holds a permit and gives it back at the end. One party may wait for many
permits at once: it *gathers* what is free at the beginning, and every permit given back
later, until it has what it wants. Permits are never lost, so those that are free, those
that are gathered and those that are held always add up to the size of the pool.
-/

set_option autoImplicit false

namespace Leasework.Crew

/-- A pool of permits. -/
structure Permits where
  /-- Permits nobody has. -/
  free : Nat
  /-- Permits gathered by the party that waits for many. -/
  gathered : Nat
  /-- How many that party wants; zero while there is none. -/
  wanted : Nat
deriving DecidableEq, Repr

namespace Permits

/-- A pool with all its permits. -/
def full (size : Nat) : Permits := ⟨size, 0, 0⟩

/-- Takes a free permit. -/
def acquire? (p : Permits) : Option Permits :=
  if 0 < p.free then some { p with free := p.free - 1 } else none

/-- Gives a permit back: to the party that waits, as long as it wants more. -/
def release (p : Permits) : Permits :=
  if p.gathered < p.wanted then { p with gathered := p.gathered + 1 }
  else { p with free := p.free + 1 }

/-- Begins to wait for many permits. -/
def gather (n : Nat) (p : Permits) : Permits :=
  { free := p.free - min p.free n, gathered := min p.free n, wanted := n }

/-- Whether the party that waits has all it wants. -/
def complete (p : Permits) : Bool := p.wanted ≤ p.gathered

/-- The permits that nobody holds. -/
def unheld (p : Permits) : Nat := p.free + p.gathered

theorem unheld_acquire {p q : Permits} (h : p.acquire? = some q) : q.unheld + 1 = p.unheld := by
  unfold acquire? at h
  split at h
  · cases h; simp only [unheld]; omega
  · simp at h

theorem unheld_release (p : Permits) : p.release.unheld = p.unheld + 1 := by
  unfold release
  split <;> simp only [unheld] <;> omega

theorem unheld_gather {p : Permits} (n : Nat) (h : p.gathered = 0) :
    (p.gather n).unheld = p.unheld := by
  simp only [gather, unheld, h]; omega

end Permits

end Leasework.Crew
