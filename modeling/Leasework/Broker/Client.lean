import Leasework.Broker.Address
import Leasework.Broker.Command
import Leasework.Queue.Retry

/-!
# `Leasework.Broker.Client`: sending to a broker, and settling what it delivered

A `Session` is what a client sees of a broker: the replies to come and the commands told
so far. Sends and lease scripts are tried again as long as the broker throttles them. A
script that the broker does not know is loaded and run once more, which is part of the
same attempt.

A lease script answers one if the delivery was still leased, and anything else if not.
-/

set_option autoImplicit false

namespace Leasework.Broker

/-- A reply that is to come. -/
inductive Reply where
  /-- An answer that takes some time, in nanoseconds. -/
  | answer (takes : Nat) (a : Answer)
  /-- What the broker answers when all is well. -/
  | usual
  /-- The caller is canceled while the command runs. -/
  | cancels

/-- What a broker answers when all is well. -/
def usualAnswer : Command → Value
  | .createGroup _ _ => .bulk "OK"
  | .add _ _ => .bulk "0-1"
  | .read _ _ _ _ => .nil
  | .acknowledge _ _ _ => .integer 1
  | .reclaim _ _ _ _ _ => .array []
  | .lease _ _ _ _ _ _ _ => .integer 1

/-- What a client sees of a broker. -/
structure Session where
  /-- The replies to come. -/
  replies : List Reply
  /-- The commands told so far with their times, the last one first. -/
  commands : List (Nat × Command)

namespace Session

/-- Tells a command: the reply that comes, if it is not a cancellation. Without a reply
left all is well. -/
def tell (now : Nat) (s : Session) (c : Command) : Session × Option (Nat × Answer) :=
  let commands := (now, c) :: s.commands
  match s.replies with
  | [] => (⟨[], commands⟩, some (0, .ok (usualAnswer c)))
  | .usual :: rest => (⟨rest, commands⟩, some (0, .ok (usualAnswer c)))
  | .answer takes a :: rest => (⟨rest, commands⟩, some (takes, a))
  | .cancels :: rest => (⟨rest, commands⟩, none)

/-- Tells a command that nothing interrupts. -/
def perform (now : Nat) (s : Session) (c : Command) : Session × (Nat × Answer) :=
  let (s, reply) := s.tell now c
  (s, reply.getD (0, .ok (usualAnswer c)))

/-- Attempts a command: an unknown script is run once more. -/
def attempt {α : Type} (read : Value → Option α) (c : Command) (now : Nat) (s : Session) :
    Session × Queue.Attempt α :=
  let (s, takes, a) := s.perform now c
  if c.isScript && isUnknownScript a then
    let (s, more, a) := s.perform (now + takes) c
    (s, ⟨takes + more, expect read a⟩)
  else (s, ⟨takes, expect read a⟩)

end Session

/-- The code with which a broker says that a group is there already. -/
def groupExists : String := "BUSYGROUP"

/-- Opens a queue: its stream and group are created unless they are there already. -/
def Client.open (settings : Queue.Settings) (consumer : String) (s : Session) :
    Session × Except Queue.Failure Client :=
  let c : Client :=
    ⟨settings.name, settings.group, consumer, settings.leaseSeconds, settings.patience⟩
  let (s, _, a) := s.perform 0 (.createGroup c.stream c.group)
  match a with
  | .ok _ => (s, .ok c)
  | .error text =>
    if codeOf text = groupExists then (s, .ok c) else (s, .error (errorFailure text))

namespace Client

/-- The lease of a message. -/
def lease (c : Client) : Span := .ofSecs c.leaseSeconds

/-- Tries a command again as long as it is throttled. -/
def retry {α : Type} (c : Client) (read : Value → Option α) (command : Command)
    (cancelAt : Option Nat) (notices : Nat → Queue.Notice) (fuel now : Nat) (s : Session) :
    Session × Option (Queue.Retry.Ending α) :=
  Queue.Retry.runFrom c.patience cancelAt (fun _ now s => s.attempt read command now) notices
    fuel 0 now s []

/-- Sends a message. -/
def send (c : Client) (content : String) (cancelAt : Option Nat)
    (notices : Nat → Queue.Notice) (fuel now : Nat) (s : Session) :
    Session × Option (Queue.Retry.Ending String) :=
  c.retry Value.text? (.add c.stream content) cancelAt notices fuel now s

/-- The command that runs a script on a delivery. -/
def leaseCommand (c : Client) (script : LeaseScript) (e : Entry) : Command :=
  .lease script c.stream c.group c.consumer e.id e.deliveries c.leaseMillis

/-- What the answer of a lease script means. -/
def heldOrLost (e : Entry) : Except Queue.Failure Int → Except Queue.Failure Unit
  | .ok n => if n = 1 then .ok () else .error (.leaseLost e.id)
  | .error f => .error f

/-- Runs a script on a delivery. Nothing cancels it. -/
def settle (c : Client) (script : LeaseScript) (e : Entry) (notices : Nat → Queue.Notice)
    (fuel now : Nat) (s : Session) : Session × Option (Except Queue.Failure Unit × Nat) :=
  let (s, ending) := c.retry Value.integer? (c.leaseCommand script e) none notices fuel now s
  (s, ending.map fun ending => (heldOrLost e ending.result, ending.endedAt))

end Client

end Leasework.Broker
