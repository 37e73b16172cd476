import Leasework.Queue.Failure
import Leasework.Queue.Notice
import Leasework.Span

/-!
# `Leasework.Polling.Service`: the polling service, seen from its callers

The service is asked by requests and answers each with one reply, which takes its time.
A `Session` is what a caller sees of it: the clock, the replies to come, and the requests
made so far. When no reply is left the service answers with an empty one.

A request whose wait is canceled has been made all the same, and has used its reply,
unless the cancellation was there before and was noticed first.
-/

set_option autoImplicit false

namespace Leasework.Polling

/-- A request to the service. -/
inductive Request where
  /-- Asks for the address of a queue. -/
  | queueUrl (name : String)
  /-- Sends a message, in a group if the queue keeps the order of groups. -/
  | send (url body : String) (group : Option String)
  /-- Asks for up to so many messages, hidden from others for so many seconds. -/
  | receive (url : String) (most hiddenSeconds : Nat)
  /-- Hides a message for so many seconds from now on. -/
  | changeVisibility (url handle : String) (hiddenSeconds : Nat)
  /-- Deletes a message. -/
  | delete (url handle : String)
deriving DecidableEq, Repr

/-- The call of the service that a request is. -/
def Request.call : Request → Queue.ServiceCall
  | .queueUrl _ => .getQueueUrl
  | .send _ _ _ => .sendMessage
  | .receive _ _ _ => .receiveMessage
  | .changeVisibility _ _ _ => .changeVisibility
  | .delete _ _ => .deleteMessage

/-- A message as the service gives it out; anything may be missing. -/
structure RawMessage where
  /-- Its id. -/
  id : Option String
  /-- The handle of this delivery. -/
  handle : Option String
  /-- Its content. -/
  body : Option String
deriving DecidableEq, Repr

/-- What the service answers when it does not fail. -/
structure Response where
  /-- The address of a queue. -/
  queueUrl : Option String
  /-- Messages. -/
  messages : List RawMessage
deriving DecidableEq, Repr

/-- A response with nothing in it. -/
def Response.empty : Response := ⟨none, []⟩

/-- One reply: how long it takes, and a response or a failure, perhaps with a code. -/
structure Reply where
  /-- The time until it arrives, in nanoseconds. -/
  takes : Nat
  /-- The response, or the code of the failure. -/
  outcome : Except (Option String) Response

/-- What a caller sees of the service. -/
structure Session where
  /-- The clock, in nanoseconds. -/
  now : Nat
  /-- The replies to come. -/
  replies : List Reply
  /-- The requests made so far with their times, the last one first. -/
  requests : List (Nat × Request)

namespace Session

/-- A session that begins at time zero. -/
def start (replies : List Reply) : Session := ⟨0, replies, []⟩

/-- Makes a request, and says what the reply will be. -/
def ask (s : Session) (r : Request) : Session × Reply :=
  let requests := (s.now, r) :: s.requests
  match s.replies with
  | [] => ({ s with requests := requests }, ⟨0, .ok .empty⟩)
  | reply :: rest => ({ s with replies := rest, requests := requests }, reply)

/-- The result of a request. -/
def resultOf (r : Request) (reply : Reply) : Except Queue.Failure Response :=
  match reply.outcome with
  | .ok response => .ok response
  | .error code => .error (.service r.call code)

/-- Makes a request and waits for its reply. -/
def perform (s : Session) (r : Request) : Session × Except Queue.Failure Response :=
  let (s, reply) := s.ask r
  ({ s with now := s.now + reply.takes }, resultOf r reply)

/-- Makes a request and waits for its reply, unless the wait is canceled. -/
def performUnless (cancelAt : Option Nat) (notice : Queue.Notice) (s : Session) (r : Request) :
    Session × Except Queue.Failure Response :=
  if Queue.canceledBy cancelAt s.now && notice = .cancellation then (s, .error .canceled)
  else
    let begun := s.now
    let (s, reply) := s.ask r
    let ends := begun + reply.takes
    let s := { s with now := Queue.wakesAt cancelAt begun ends }
    if Queue.leavesCanceled cancelAt notice begun ends then (s, .error .canceled)
    else (s, resultOf r reply)

/-- Rests, unless the rest is canceled: whether it was not. -/
def restUnless (cancelAt : Option Nat) (notice : Queue.Notice) (s : Session) (duration : Nat) :
    Session × Bool :=
  let ends := s.now + duration
  ({ s with now := Queue.wakesAt cancelAt s.now ends },
    !Queue.leavesCanceled cancelAt notice s.now ends)

end Session

end Leasework.Polling
