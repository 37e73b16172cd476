import Leasework.Document
import Leasework.Span
import Leasework.Text.Blank
import Leasework.Queue.Failure
import Leasework.Queue.Kind
import Leasework.Queue.Patience

/-!
# `Leasework.Queue.Settings`: the settings of one queue

Settings are read from a document, checked, and written back. The lease has no
default: some brokers cannot set it, so the document always says it. An endpoint may
be left out of the document so that the host can fill it in; the check refuses it
while it is still blank.

`Settings.problem?` is the first thing wrong, in a fixed order: name, endpoint, zero
lease, and then what only one kind of queue allows.
-/

set_option autoImplicit false

namespace Leasework.Queue

/-- The settings of one queue. -/
structure Settings where
  /-- The family of the queue. -/
  kind : Kind
  /-- The name of the queue: a stream, a queue name or a queue address. -/
  name : String
  /-- Where the queue is reached. -/
  endpoint : String
  /-- The lease of a received message in seconds. -/
  leaseSeconds : UInt64
  /-- Milliseconds between two requests to an empty polling queue. -/
  pollMillis : Option UInt64
  /-- Whether throttled calls are made again. -/
  retriesThrottled : Option Bool
  /-- Milliseconds between two throttled attempts. -/
  backoffMillis : Option UInt64
  /-- The group of consumers that share a broker queue. -/
  consumerGroup : Option String
  /-- The group of messages that a first-in-first-out polling queue keeps in order. -/
  messageGroup : Option String
deriving DecidableEq, Repr

/-- What is wrong with the settings of a queue. -/
inductive Problem where
  /-- The name is blank. -/
  | blankName
  /-- The endpoint is blank. -/
  | blankEndpoint (queue : String)
  /-- The lease is zero. -/
  | zeroLease (queue : String)
  /-- The lease is longer than a polling service hides a message. -/
  | leaseTooLong (queue : String)
  /-- A polling queue has no consumer group. -/
  | groupOfPolling (queue : String)
  /-- A broker queue is not polled. -/
  | pollOfBroker (queue : String)
  /-- The consumer group is blank. -/
  | blankGroup (queue : String)
  /-- The lease does not fit the number that the polling service takes. -/
  | leaseOutOfRange (queue : String)
deriving DecidableEq, Repr

/-- The most seconds a polling service hides a message: twelve hours. -/
def longestPollingLease : Nat := 43200

/-- The wording of a problem. -/
def Problem.message : Problem → String
  | .blankName => "queue name is empty"
  | .blankEndpoint q => "endpoint of queue '" ++ q ++ "' is empty"
  | .zeroLease q => "lease_seconds of queue '" ++ q ++ "' must be greater than 0"
  | .leaseTooLong q =>
    "lease_seconds of queue '" ++ q ++ "' exceeds " ++ toString longestPollingLease
  | .groupOfPolling q => "consumer_group is not supported by polling queue '" ++ q ++ "'"
  | .pollOfBroker q => "poll_interval_ms is not supported by broker queue '" ++ q ++ "'"
  | .blankGroup q => "consumer_group of queue '" ++ q ++ "' is empty"
  | .leaseOutOfRange q => "lease_seconds of queue '" ++ q ++ "' is out of range"

/-- A problem as the failure of a queue call. -/
def Problem.toFailure (p : Problem) : Failure := .misconfigured p.message

namespace Settings

/-- Settings with nothing optional set. -/
def plain (kind : Kind) (name endpoint : String) (leaseSeconds : UInt64) : Settings :=
  ⟨kind, name, endpoint, leaseSeconds, none, none, none, none, none⟩

/-- What only one kind of queue allows. -/
def kindProblem? (s : Settings) : Option Problem :=
  match s.kind with
  | .polling =>
    if longestPollingLease < s.leaseSeconds.toNat then some (.leaseTooLong s.name)
    else if s.consumerGroup.isSome then some (.groupOfPolling s.name)
    else none
  | .broker =>
    if s.pollMillis.isSome then some (.pollOfBroker s.name)
    else
      match s.consumerGroup with
      | some group => if Text.allBlank group then some (.blankGroup s.name) else none
      | none => none

/-- The first thing wrong with the settings. -/
def problem? (s : Settings) : Option Problem :=
  if Text.allBlank s.name then some .blankName
  else if Text.allBlank s.endpoint then some (.blankEndpoint s.name)
  else if s.leaseSeconds = 0 then some (.zeroLease s.name)
  else s.kindProblem?

/-- The lease of a received message. -/
def lease (s : Settings) : Span := .ofSecs s.leaseSeconds

/-- The milliseconds between two requests to an empty queue unless told otherwise. -/
def defaultPollMillis : UInt64 := 500

/-- The time between two requests to an empty polling queue. -/
def pollInterval (s : Settings) : Span := .ofMillis (s.pollMillis.getD defaultPollMillis)

/-- The time before a throttled call is made again. -/
def backoff (s : Settings) : Span :=
  .ofMillis (s.backoffMillis.getD Patience.defaultBackoffMillis)

/-- Whether and when throttled calls are made again. -/
def patience (s : Settings) : Patience := ⟨s.retriesThrottled.getD true, s.backoff.toNanos⟩

/-- The group of consumers of a broker queue. -/
def group (s : Settings) : String := s.consumerGroup.getD "workers"

/-- The group of messages of a first-in-first-out polling queue. -/
def messageGroupName (s : Settings) : String := s.messageGroup.getD "default"

/-- The names of the settings in the order of a list that stands for a record. -/
def columns : List String :=
  ["kind", "name", "endpoint", "lease_seconds", "poll_interval_ms", "retry_on_throttled",
    "throttle_backoff_ms", "consumer_group", "message_group_id"]

/-- Reads settings from a document. -/
def read? (rules : ReadingRules) (d : Document) : Option Settings := do
  let row ← d.row? rules columns
  let kind ← Document.required? (row "kind") (Kind.read? rules)
  let name ← Document.required? (row "name") Document.text?
  let endpoint ← Document.orElse? (row "endpoint") "" Document.text?
  let leaseSeconds ← Document.required? (row "lease_seconds") Document.word?
  let pollMillis ← Document.orElse? (row "poll_interval_ms") none (Document.optional? Document.word?)
  let retriesThrottled ←
    Document.orElse? (row "retry_on_throttled") none (Document.optional? Document.flag?)
  let backoffMillis ←
    Document.orElse? (row "throttle_backoff_ms") none (Document.optional? Document.word?)
  let consumerGroup ←
    Document.orElse? (row "consumer_group") none (Document.optional? Document.text?)
  let messageGroup ←
    Document.orElse? (row "message_group_id") none (Document.optional? Document.text?)
  some
    { kind, name, endpoint, leaseSeconds, pollMillis, retriesThrottled, backoffMillis,
      consumerGroup, messageGroup }

/-- A setting that is written only when it is set. -/
def optionalField {α : Type} (name : String) (write : α → Document) :
    Option α → List (String × Document)
  | some a => [(name, write a)]
  | none => []

/-- Writes settings as a document. What is not set is left out. -/
def toDocument (s : Settings) : Document :=
  .table <|
    [("kind", .text s.kind.name), ("name", .text s.name), ("endpoint", .text s.endpoint),
      ("lease_seconds", .ofWord s.leaseSeconds)]
    ++ optionalField "poll_interval_ms" .ofWord s.pollMillis
    ++ optionalField "retry_on_throttled" .flag s.retriesThrottled
    ++ optionalField "throttle_backoff_ms" .ofWord s.backoffMillis
    ++ optionalField "consumer_group" .text s.consumerGroup
    ++ optionalField "message_group_id" .text s.messageGroup

end Settings

end Leasework.Queue
