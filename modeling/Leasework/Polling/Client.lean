import Leasework.Polling.Service
import Leasework.Queue.Settings
import Leasework.Queue.Single
import Leasework.Text.Lowercase

/-!
# `Leasework.Polling.Client`: a queue of the polling service

The service never waits for messages, so a receiver that gets none rests for the poll
interval and asks again. A lease is the time for which a message stays hidden: renewing
hides it for a whole lease again, and giving it back shows it at once.

Failures of the service are handed on and nothing is tried again. A message without a
handle could neither be renewed nor deleted, so it is left out.
-/

set_option autoImplicit false

namespace Leasework.Polling

/-- A queue that has been opened. -/
structure Client where
  /-- The name in the settings. -/
  name : String
  /-- The address of the queue. -/
  url : String
  /-- The lease of a message in seconds. -/
  leaseSeconds : UInt64
  /-- How long a receiver rests that gets no message, in nanoseconds. -/
  pollInterval : Nat
  /-- The group of messages that are sent, if the queue keeps the order of groups. -/
  group : Option String
deriving DecidableEq, Repr

/-- A message that has been received. -/
structure Message where
  /-- Its id. -/
  id : String
  /-- Its content. -/
  content : String
  /-- The handle of this delivery. -/
  handle : String
deriving DecidableEq, Repr

/-! ### Addresses -/

/-- The parts of an address between slashes. -/
def parts (cs : List Char) : List (List Char) := cs.splitOn '/'

/-- The last part of an address that names something: slashes and single dots at the end
count for nothing, and two dots name nothing. -/
def lastPart? (address : String) : Option (List Char) :=
  match (parts address.toList).reverse.dropWhile (fun part => part = [] || part = ['.']) with
  | [] => none
  | part :: _ => if part = ['.', '.'] then none else some part

/-- What follows the last dot of a part, unless the dot is its first character. -/
def extension? (part : List Char) : Option (List Char) :=
  let before := part.reverse.dropWhile (· ≠ '.')
  match before with
  | _ :: _ :: _ => some (part.reverse.takeWhile (· ≠ '.')).reverse
  | _ => none

/-- Whether the queue of an address keeps the order of its messages. -/
def keepsOrder (address : String) : Bool :=
  match (lastPart? address).bind extension? with
  | some extension => Text.lowerAscii (String.ofList extension) = "fifo"
  | none => false

/-- Whether a name is an address already. -/
def isAddress (name : String) : Bool := name.startsWith "http://" || name.startsWith "https://"

/-! ### Opening -/

/-- The longest time that the service can be told to hide a message, in seconds. -/
def mostSeconds : Nat := 2147483647

/-- The address of a queue: its name, or what the service answers for it. -/
def addressOf (s : Session) (settings : Queue.Settings) :
    Session × Except Queue.Failure String :=
  if isAddress settings.name then (s, .ok settings.name)
  else
    let (s, result) := s.perform (.queueUrl settings.name)
    match result with
    | .error f => (s, .error f)
    | .ok response =>
      match response.queueUrl with
      | some url => (s, .ok url)
      | none => (s, .error (.backend ("no URL for queue " ++ settings.name)))

/-- The client of a queue at an address. -/
def Client.at (settings : Queue.Settings) (url : String) : Client where
  name := settings.name
  url := url
  leaseSeconds := settings.leaseSeconds
  pollInterval := settings.pollInterval.toNanos
  group := if keepsOrder url then some settings.messageGroupName else none

/-- Opens a queue. Only the lease is checked, since the service could not be told one
that is too long. -/
def Client.open (s : Session) (settings : Queue.Settings) :
    Session × Except Queue.Failure Client :=
  if mostSeconds < settings.leaseSeconds.toNat then
    (s, .error (Queue.Problem.leaseOutOfRange settings.name).toFailure)
  else
    let (s, url) := addressOf s settings
    (s, url.map (Client.at settings))

namespace Client

/-- The lease of a message. -/
def lease (c : Client) : Span := .ofSecs c.leaseSeconds

/-! ### Receiving -/

/-- The most messages that the service gives out at once. -/
def mostAtOnce : Nat := 10

/-- How many messages are asked for at once. -/
def askedFor (most : Nat) : Nat := min (Queue.atLeastOne most) mostAtOnce

/-- The messages of a response that have a handle. -/
def received (response : Response) : List Message :=
  response.messages.filterMap fun m =>
    m.handle.map fun handle => ⟨m.id.getD "", m.body.getD "", handle⟩

/-- The request for messages. -/
def receiveRequest (c : Client) (most : Nat) : Request :=
  .receive c.url (askedFor most) c.leaseSeconds.toNat

/-- Waits for a batch of at most `most` messages. The two waits of round `k`, for the
reply and for the next round, notice a cancellation as `notices (2 * k)` and
`notices (2 * k + 1)` say. With too little fuel there is no answer yet. -/
def waitBatchFrom (c : Client) (most : Nat) (cancelAt : Option Nat)
    (notices : Nat → Queue.Notice) :
    (fuel : Nat) → (k : Nat) → Session → Session × Option (Except Queue.Failure (List Message))
  | 0, _, s => (s, none)
  | fuel + 1, k, s =>
    let (s, result) := s.performUnless cancelAt (notices (2 * k)) (c.receiveRequest most)
    match result with
    | .error f => (s, some (.error f))
    | .ok response =>
      match received response with
      | [] =>
        let (s, rested) := s.restUnless cancelAt (notices (2 * k + 1)) c.pollInterval
        if rested then waitBatchFrom c most cancelAt notices fuel (k + 1) s
        else (s, some (.error .canceled))
      | batch => (s, some (.ok batch))

/-- Waits for a batch of at most `most` messages. -/
def waitBatch (c : Client) (most : Nat) (cancelAt : Option Nat) (notices : Nat → Queue.Notice)
    (fuel : Nat) (s : Session) : Session × Option (Except Queue.Failure (List Message)) :=
  c.waitBatchFrom most cancelAt notices fuel 0 s

/-- Waits for one message. -/
def wait (c : Client) (cancelAt : Option Nat) (notices : Nat → Queue.Notice) (fuel : Nat)
    (s : Session) : Session × Option (Except Queue.Failure Message) :=
  let (s, result) := c.waitBatch 1 cancelAt notices fuel s
  (s, result.map (Queue.single c.name))

/-! ### Sending and settling -/

/-- Sends a message. -/
def send (c : Client) (content : String) (cancelAt : Option Nat) (notice : Queue.Notice)
    (s : Session) : Session × Except Queue.Failure Unit :=
  let (s, result) := s.performUnless cancelAt notice (.send c.url content c.group)
  (s, result.map fun _ => ())

/-- Hides a message for some time from now on. -/
def hide (c : Client) (m : Message) (seconds : Nat) (s : Session) :
    Session × Except Queue.Failure Unit :=
  let (s, result) := s.perform (.changeVisibility c.url m.handle seconds)
  (s, result.map fun _ => ())

/-- Renews the lease of a message. -/
def renew (c : Client) (m : Message) (s : Session) : Session × Except Queue.Failure Unit :=
  c.hide m c.leaseSeconds.toNat s

/-- Gives a message back. -/
def giveBack (c : Client) (m : Message) (s : Session) : Session × Except Queue.Failure Unit :=
  c.hide m 0 s

/-- Deletes a message. -/
def delete (c : Client) (m : Message) (s : Session) : Session × Except Queue.Failure Unit :=
  let (s, result) := s.perform (.delete c.url m.handle)
  (s, result.map fun _ => ())

end Client

end Leasework.Polling
