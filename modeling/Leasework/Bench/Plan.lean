/-!
# `Leasework.Bench.Plan`: what a throughput run is asked to do

A plan says how many messages go through the queues, how many senders and receivers
share the work, and how many messages a receiver takes at once. Every sender sends the
same number of messages, so the count is rounded down to a multiple of the senders.
-/

set_option autoImplicit false

namespace Leasework.Bench

/-- What a throughput run is asked to do. -/
structure Plan where
  /-- Messages to send, to receive, or both. -/
  count : Nat
  /-- Senders at work at once; without any the run only receives. -/
  senders : Nat
  /-- Receivers at work at once; without any the run only sends. -/
  receivers : Nat
  /-- The most messages a receiver takes at once. -/
  batch : Nat
  /-- The content of every message. -/
  message : String
deriving DecidableEq, Repr

/-- What is wrong with a plan. -/
inductive PlanFault where
  /-- There is nothing to send or receive. -/
  | emptyCount
  /-- A sender would have nothing to send. -/
  | countBelowSenders (count senders : Nat)
  /-- The messages would be empty. -/
  | emptyMessage
  /-- A receiver would take nothing. -/
  | emptyBatch
deriving DecidableEq, Repr

/-- The wording of a plan fault. -/
def PlanFault.message : PlanFault → String
  | .emptyCount => "Count must be greater than 0"
  | .countBelowSenders count senders =>
    "Count " ++ toString count ++ " is less than the number of senders " ++ toString senders
  | .emptyMessage => "Message must not be empty"
  | .emptyBatch => "Batch size must be greater than 0"

/-- A count rounded down to a multiple of the senders, and the count itself without any. -/
def rounded (count senders : Nat) : Nat :=
  if senders = 0 then count else count / senders * senders

namespace Plan

/-- The first thing wrong with a plan. -/
def fault? (p : Plan) : Option PlanFault :=
  if p.count = 0 then some .emptyCount
  else if 0 < p.senders ∧ p.count < p.senders then some (.countBelowSenders p.count p.senders)
  else if 0 < p.senders ∧ p.message = "" then some .emptyMessage
  else if 0 < p.receivers ∧ p.batch = 0 then some .emptyBatch
  else none

/-- The messages that are sent in all. -/
def messagesToSend (p : Plan) : Nat := rounded p.count p.senders

end Plan

end Leasework.Bench
