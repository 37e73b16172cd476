import Leasework.Broker.Command
import Leasework.Queue.Single

/-!
# `Leasework.Broker.Receiver`: waiting for a batch, step by step

An attempt first claims entries whose lease has expired, and only if there are none it
reads new ones. A read blocks its connection, so every read has one to itself: it takes
one out of the pool, or opens one, and puts it back when the read has succeeded. The
connection of a read that failed or was given up is never used again.

Entries without a body are acknowledged one by one and left out. An attempt that is
throttled anywhere is made again from its beginning; an attempt that finds nothing is
followed by another.

All receivers of a queue share one pool. A receiver does not say when a reply comes:
`Receiver.step` takes what happens and says what the receiver does next.
-/

set_option autoImplicit false

namespace Leasework.Broker

/-- The connections for reads. -/
structure Pool where
  /-- The connections that nobody uses, the last one put back first. -/
  idle : List Nat
  /-- How many connections have been opened. -/
  opened : Nat
deriving DecidableEq, Repr

namespace Pool

/-- A pool without connections. -/
def empty : Pool := ⟨[], 0⟩

/-- Takes a connection out, if there is one. -/
def checkOut? (p : Pool) : Option (Pool × Nat) :=
  match p.idle with
  | [] => none
  | connection :: rest => some ({ p with idle := rest }, connection)

/-- Opens a new connection. -/
def connect (p : Pool) : Pool × Nat := ({ p with opened := p.opened + 1 }, p.opened)

/-- Puts a connection back. -/
def putBack (p : Pool) (connection : Nat) : Pool := { p with idle := connection :: p.idle }

end Pool

/-- Where a receiver is between two steps. -/
inductive Phase where
  /-- An attempt is next. -/
  | ready
  /-- Expired entries are being claimed, perhaps for a second time because the broker did
  not know the script. -/
  | reclaiming (again : Bool)
  /-- A connection is being opened. -/
  | connecting
  /-- New entries are being read. -/
  | reading (connection : Nat)
  /-- An entry without a body is being acknowledged; some entries were kept before it, and
  some are left behind it. -/
  | acknowledging (kept : List Entry) (id : String) (rest : List RawEntry)
  /-- The backoff lasts till a moment. -/
  | resting (till : Nat)
  /-- The wait is over. -/
  | ended (result : Except Queue.Failure (List Entry))

/-- A wait for a batch. -/
structure Receiver where
  /-- The queue. -/
  client : Client
  /-- The most messages that are wanted. -/
  most : Nat
  /-- Where the wait is. -/
  phase : Phase

/-- Something that happens to a receiver. -/
inductive Happening where
  /-- It begins an attempt. -/
  | begin
  /-- The broker answers. -/
  | answer (a : Answer)
  /-- A connection has been opened, or could not be. -/
  | connected (result : Except Queue.Failure Unit)
  /-- Its backoff is over. -/
  | rested
  /-- It notices the cancellation. -/
  | cancel

namespace Receiver

/-- A wait that has not done anything yet. -/
def start (c : Client) (most : Nat) : Receiver := ⟨c, Queue.atLeastOne most, .ready⟩

/-- Goes into a phase. -/
def enter (r : Receiver) (phase : Phase) : Receiver := { r with phase := phase }

/-- The command whose answer is awaited. -/
def command? (r : Receiver) : Option Command :=
  let c := r.client
  match r.phase with
  | .reclaiming _ => some (.reclaim c.stream c.group c.consumer c.leaseMillis r.most)
  | .reading _ => some (.read c.stream c.group c.consumer r.most)
  | .acknowledging _ id _ => some (.acknowledge c.stream c.group id)
  | _ => none

/-- An attempt has ended. -/
def settle (now : Nat) (r : Receiver) (result : Except Queue.Failure (List Entry)) : Receiver :=
  if r.client.patience.triesAgain result then
    r.enter (.resting (now + r.client.patience.backoff))
  else
    match result with
    | .ok [] => r.enter .ready
    | _ => r.enter (.ended result)

/-- Keeps the entries that have a body, up to the first one that has none. -/
def sift (now : Nat) (r : Receiver) (kept : List Entry) : List RawEntry → Receiver
  | [] => settle now r (.ok kept)
  | ⟨id, some body⟩ :: rest => sift now r (kept ++ [⟨id, 1, body⟩]) rest
  | ⟨id, none⟩ :: rest => r.enter (.acknowledging kept id rest)

/-- Nothing has been claimed: new entries are read on a connection of their own. -/
def checkOut (p : Pool) (r : Receiver) : Pool × Receiver :=
  match p.checkOut? with
  | some (p, connection) => (p, r.enter (.reading connection))
  | none => (p, r.enter .connecting)

/-- The reclaim script has answered. -/
def reclaimed (now : Nat) (p : Pool) (r : Receiver) (again : Bool) (a : Answer) :
    Pool × Receiver :=
  if isUnknownScript a && !again then (p, r.enter (.reclaiming true))
  else
    match expect Value.reclaimed? a with
    | .ok [] => checkOut p r
    | result => (p, settle now r result)

/-- A read has been answered. -/
def hasRead (now : Nat) (p : Pool) (r : Receiver) (connection : Nat) (a : Answer) :
    Pool × Receiver :=
  match expect Value.read? a with
  | .ok entries => (p.putBack connection, sift now r [] entries)
  | .error f => (p, settle now r (.error f))

/-- An acknowledgement has been answered. -/
def acknowledged (now : Nat) (r : Receiver) (kept : List Entry) (rest : List RawEntry)
    (a : Answer) : Receiver :=
  match expect Value.integer? a with
  | .ok _ => sift now r kept rest
  | .error f => settle now r (.error f)

/-- What a receiver does when something happens, if that can happen. -/
def step (canceled : Bool) (now : Nat) (p : Pool) (r : Receiver) :
    Happening → Option (Pool × Receiver)
  | .begin =>
    match r.phase with
    | .ready =>
      if canceled then some (p, r.enter (.ended (.error .canceled)))
      else some (p, r.enter (.reclaiming false))
    | _ => none
  | .answer a =>
    match r.phase with
    | .reclaiming again => some (reclaimed now p r again a)
    | .reading connection => some (hasRead now p r connection a)
    | .acknowledging kept _ rest => some (p, acknowledged now r kept rest a)
    | _ => none
  | .connected result =>
    match r.phase, result with
    | .connecting, .ok _ =>
      let (p, connection) := p.connect
      some (p, r.enter (.reading connection))
    | .connecting, .error f => some (p, settle now r (.error f))
    | _, _ => none
  | .rested =>
    match r.phase with
    | .resting till => if till ≤ now then some (p, r.enter .ready) else none
    | _ => none
  | .cancel =>
    match r.phase with
    | .ended _ => none
    | _ => if canceled then some (p, r.enter (.ended (.error .canceled))) else none

end Receiver

end Leasework.Broker
