import Leasework.Polling.Client

/-!
# `Leasework.Polling.Rehearsal`: steps on a polling queue, one after the other

Every step is a call of a client that has been opened. A step that takes an hour is
dropped: for the service that is a cancellation like any other.
-/

set_option autoImplicit false

namespace Leasework.Polling

/-- One call of a client. Messages are named by their numbers, in the order in which they
were received. -/
inductive Action where
  /-- Sends a message. -/
  | send (content : String)
  /-- Waits for one message. -/
  | wait
  /-- Waits for a batch. -/
  | waitBatch (most : Nat)
  /-- Renews the lease of a message. -/
  | renew (message : Nat)
  /-- Gives a message back. -/
  | giveBack (message : Nat)
  /-- Deletes a message. -/
  | delete (message : Nat)

/-- What comes of a step. -/
inductive Answer where
  /-- It was done. -/
  | done
  /-- Messages came, each under its number. -/
  | messages (batch : List (Nat × Message))
  /-- It failed. -/
  | failed (f : Queue.Failure)
  /-- It took too long and was dropped. -/
  | timedOut

/-- What is known of a step afterwards. -/
structure Entry where
  /-- What came of it. -/
  answer : Answer
  /-- How long it took, in nanoseconds. -/
  elapsed : Nat
  /-- The requests it made, in order, with their times. -/
  requests : List (Nat × Request)

/-- How long a step may take. -/
def longestStep : Nat := 3600 * nanosPerSecond

/-- A rehearsal in progress. -/
structure Stage where
  /-- What the client sees of the service. -/
  session : Session
  /-- The messages received so far. -/
  inbox : List Message

namespace Stage

/-- The answer of a step without content. -/
def ofUnit : Except Queue.Failure Unit → Answer
  | .ok _ => .done
  | .error f => .failed f

/-- Gives messages their numbers. -/
def receive (inbox : List Message) (batch : List Message) : List Message × Answer :=
  (inbox ++ batch, .messages (batch.zipIdx.map fun (m, i) => (inbox.length + i, m)))

/-- The answer of a wait. -/
def ofBatch (inbox : List Message) :
    Option (Except Queue.Failure (List Message)) → List Message × Answer
  | none => (inbox, .timedOut)
  | some (.error f) => (inbox, .failed f)
  | some (.ok batch) => receive inbox batch

/-- How many rounds a wait may take. -/
def fuel : Nat := 1000000000000

/-- A call on a message that has been received. -/
def settle (inbox : List Message) (message : Nat) (s : Session)
    (call : Message → Session → Session × Except Queue.Failure Unit) :
    Session × List Message × Answer :=
  match inbox[message]? with
  | some m =>
    let (s, result) := call m s
    (s, inbox, ofUnit result)
  | none => (s, inbox, .done)

/-- Makes a call that is canceled at a moment. -/
def act (c : Client) (cancelAt : Option Nat) (notices : Nat → Queue.Notice) (stage : Stage) :
    Action → Session × List Message × Answer
  | .send content =>
    let (s, result) := c.send content cancelAt (notices 0) stage.session
    (s, stage.inbox, ofUnit result)
  | .wait =>
    let (s, result) := c.wait cancelAt notices fuel stage.session
    (s, ofBatch stage.inbox (result.map fun r => r.map fun m => [m]))
  | .waitBatch most =>
    let (s, result) := c.waitBatch most cancelAt notices fuel stage.session
    (s, ofBatch stage.inbox result)
  | .renew message => settle stage.inbox message stage.session c.renew
  | .giveBack message => settle stage.inbox message stage.session c.giveBack
  | .delete message => settle stage.inbox message stage.session c.delete

/-- The first moment at which a step is canceled or dropped. -/
def endAt (cancelAt : Option Nat) (dropAt : Nat) : Nat :=
  match cancelAt with
  | some c => min c dropAt
  | none => dropAt

/-- Does a step, canceled so long after its beginning. -/
def perform (c : Client) (notices : Nat → Queue.Notice) (stage : Stage) (action : Action)
    (cancelAfter : Option Nat) : Stage × Entry :=
  let begun := stage.session.now
  let dropAt := begun + longestStep
  let cancelAt := cancelAfter.map (begun + ·)
  let isDropped (s : Session) : Bool := dropAt ≤ s.now && !Queue.canceledBy cancelAt dropAt
  let (s, inbox, answer) :=
    act c (some (endAt cancelAt dropAt)) notices
      { stage with session := { stage.session with requests := [] } } action
  let entry (answer : Answer) (s : Session) : Entry := ⟨answer, s.now - begun, s.requests.reverse⟩
  if isDropped s then
    let s := { s with now := dropAt }
    (⟨s, stage.inbox⟩, entry .timedOut s)
  else (⟨s, inbox⟩, entry answer s)

/-- Does steps, one after the other. -/
def performAll (c : Client) (notices : Nat → Queue.Notice) (stage : Stage) :
    List (Action × Option Nat) → List Entry
  | [] => []
  | (action, cancelAfter) :: rest =>
    let (stage, entry) := stage.perform c notices action cancelAfter
    entry :: stage.performAll c notices rest

end Stage

/-- Opens a queue of a service with these replies, and does steps on it. -/
def rehearse (settings : Queue.Settings) (replies : List Reply) (notices : Nat → Queue.Notice)
    (steps : List (Action × Option Nat)) :
    Except Queue.Failure Client × List (Nat × Request) × List Entry :=
  let (s, opened) := Client.open (.start replies) settings
  match opened with
  | .error f => (.error f, s.requests.reverse, [])
  | .ok c => (.ok c, s.requests.reverse, (Stage.mk s []).performAll c notices steps)

end Leasework.Polling
