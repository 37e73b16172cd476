import Leasework.Broker.Value
import Leasework.Queue.Settings

/-!
# `Leasework.Broker.Command`: what a broker is told

A queue is a stream that is read through a group of consumers. An entry that has been
delivered stays pending for its consumer until it is deleted, and the time since it was
delivered or renewed is its lease.

The lock token of a delivery is the id of the entry and its delivery count. Scripts
renew, release or delete an entry only if it is still pending for this consumer with
that count, and for less than the lease.
-/

set_option autoImplicit false

namespace Leasework.Broker

/-- A queue of a broker, as one consumer sees it. -/
structure Client where
  /-- The name of the queue, which is its stream. -/
  stream : String
  /-- The group of consumers. -/
  group : String
  /-- The name of this consumer. -/
  consumer : String
  /-- The lease of a message in seconds. -/
  leaseSeconds : UInt64
  /-- What happens after a throttled attempt. -/
  patience : Queue.Patience
deriving DecidableEq, Repr

/-- The lease of a message in milliseconds, or the largest 64-bit number if it is longer. -/
def Client.leaseMillis (c : Client) : Nat := min (c.leaseSeconds.toNat * 1000) 18446744073709551615

/-- A script on a delivered entry. -/
inductive LeaseScript where
  /-- The lease begins anew. -/
  | renew
  /-- The lease ends, and the entry can be reclaimed. -/
  | release
  /-- The entry is acknowledged and deleted. -/
  | delete
deriving DecidableEq, Repr

/-- The name of a script. -/
def LeaseScript.name : LeaseScript → String
  | .renew => "renew"
  | .release => "release"
  | .delete => "delete"

/-- A command. -/
inductive Command where
  /-- Creates a stream and a group that reads it from its beginning. -/
  | createGroup (stream group : String)
  /-- Adds an entry. -/
  | add (stream content : String)
  /-- Reads up to so many entries that nobody has read yet, and waits a little for them. -/
  | read (stream group consumer : String) (most : Nat)
  /-- Acknowledges an entry. -/
  | acknowledge (stream group id : String)
  /-- Claims up to so many entries whose lease has expired. -/
  | reclaim (stream group consumer : String) (leaseMillis most : Nat)
  /-- Runs a script on a delivered entry. -/
  | lease (script : LeaseScript) (stream group consumer id : String) (deliveries : UInt64)
      (leaseMillis : Nat)
deriving DecidableEq, Repr

/-- How long a read waits for new entries, in milliseconds. -/
def readWaitMillis : Nat := 200

/-- The words of a command; a script stands under its name. -/
def Command.words : Command → List String
  | .createGroup stream group => ["XGROUP", "CREATE", stream, group, "0", "MKSTREAM"]
  | .add stream content => ["XADD", stream, "*", bodyField, content]
  | .read stream group consumer most =>
    ["XREADGROUP", "GROUP", group, consumer, "BLOCK", toString readWaitMillis, "COUNT",
      toString most, "STREAMS", stream, ">"]
  | .acknowledge stream group id => ["XACK", stream, group, id]
  | .reclaim stream group consumer leaseMillis most =>
    ["script:reclaim", stream, group, consumer, toString leaseMillis, toString most, bodyField]
  | .lease script stream group consumer id deliveries leaseMillis =>
    ["script:" ++ script.name, stream, group, consumer, id, toString deliveries,
      toString leaseMillis]

/-- Whether a command runs a script. -/
def Command.isScript : Command → Bool
  | .reclaim _ _ _ _ _ => true
  | .lease _ _ _ _ _ _ _ => true
  | _ => false

end Leasework.Broker
