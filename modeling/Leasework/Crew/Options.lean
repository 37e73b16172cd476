import Leasework.Document
import Leasework.Span

/-!
# `Leasework.Crew.Options`: how many work at once, and how long they may take to stop

Every option has a default. The number of consumers that work at once is brought into
the range that a pool of permits can hold.
-/

set_option autoImplicit false

namespace Leasework.Crew

/-- The options of a crew. -/
structure Options where
  /-- How many consumers run at once, as written. -/
  concurrency : UInt64
  /-- Milliseconds that shutdown waits for the consumers. -/
  drainMillis : UInt64
  /-- Milliseconds before the slot of a failed consumer is used again. -/
  pauseMillis : UInt64
deriving DecidableEq, Repr

namespace Options

/-- One consumer, three seconds to drain, a pause of one second. -/
def default : Options := ⟨1, 3000, 1000⟩

/-- The most permits a pool can hold. -/
def mostPermits : Nat := 2305843009213693951

/-- How many consumers run at once: at least one, and no more than a pool can hold. -/
def size (o : Options) : Nat := max 1 (min o.concurrency.toNat mostPermits)

/-- How long shutdown waits for the consumers. -/
def drainTime (o : Options) : Span := .ofMillis o.drainMillis

/-- How long the slot of a failed consumer stays unused. -/
def pause (o : Options) : Span := .ofMillis o.pauseMillis

/-- The names of the options in the order of a list that stands for a record. -/
def columns : List String := ["concurrency", "drain_timeout_ms", "failure_backoff_ms"]

/-- Reads options from a document. -/
def read? (rules : ReadingRules) (d : Document) : Option Options := do
  let row ← d.row? rules columns
  let concurrency ← Document.orElse? (row "concurrency") default.concurrency Document.word?
  let drainMillis ← Document.orElse? (row "drain_timeout_ms") default.drainMillis Document.word?
  let pauseMillis ← Document.orElse? (row "failure_backoff_ms") default.pauseMillis Document.word?
  some { concurrency, drainMillis, pauseMillis }

/-- Writes options as a document. -/
def toDocument (o : Options) : Document :=
  .table
    [("concurrency", .ofWord o.concurrency), ("drain_timeout_ms", .ofWord o.drainMillis),
      ("failure_backoff_ms", .ofWord o.pauseMillis)]

end Options

end Leasework.Crew
