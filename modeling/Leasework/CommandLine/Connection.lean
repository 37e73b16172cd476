import Leasework.CommandLine.Options
import Leasework.Host.Variables
import Leasework.Queue.Settings
import Leasework.Text.Numeral

/-!
# `Leasework.CommandLine.Connection`: where a client finds its queues

The options of a client say where the queues are, of which kind they are, how they are
called, how long their messages are leased, and how often a polling queue is asked. Only
the endpoint has no default, but a variable may give it.
-/

set_option autoImplicit false

namespace Leasework.CommandLine

/-- Where a client finds its queues. -/
structure Connection where
  /-- The endpoint of both queues. -/
  endpoint : String
  /-- Their kind. -/
  kind : Queue.Kind
  /-- The queue that requests are sent to. -/
  requests : String
  /-- The queue that responses are received from. -/
  responses : String
  /-- Milliseconds between two requests to a polling queue. -/
  pollMillis : UInt64
  /-- The lease of a message in seconds. -/
  leaseSeconds : UInt64
deriving DecidableEq, Repr

namespace Connection

/-- The variable that names the endpoint when no option does. -/
def endpointVariable : String := "QUEUE_CONNECTION_STRING"

/-- The 64-bit number that a text is. -/
def word? (s : String) : Option UInt64 := (Text.word64 s).toOption

/-- The options. -/
def specs : List Spec :=
  [⟨"connect", fun _ => true⟩,
    ⟨"queue-type", fun s => (Queue.Kind.parse? s).isSome⟩,
    ⟨"request-queue", fun _ => true⟩,
    ⟨"response-queue", fun _ => true⟩,
    ⟨"query-interval", fun s => (word? s).isSome⟩,
    ⟨"lease", fun s => (word? s).isSome⟩]

/-- The endpoint that the variables name. -/
def endpointOf (vars : Host.Variables) : Except Fault String :=
  match vars.bytes? endpointVariable with
  | none => .error .missing
  | some bytes =>
    match Text.decode? bytes with
    | some endpoint => .ok endpoint
    | none => .error .notText

/-- Reads a connection from a command line and the variables. -/
def read (args : List String) (vars : Host.Variables) : Except Fault Connection := do
  let given ← CommandLine.read specs args
  let endpoint ← match given.lookup "connect" with
    | some endpoint => .ok endpoint
    | none => endpointOf vars
  .ok
    { endpoint := endpoint
      kind := ((given.lookup "queue-type").bind Queue.Kind.parse?).getD .broker
      requests := (given.lookup "request-queue").getD "requests"
      responses := (given.lookup "response-queue").getD "responses"
      pollMillis := ((given.lookup "query-interval").bind word?).getD Queue.Settings.defaultPollMillis
      leaseSeconds := ((given.lookup "lease").bind word?).getD 60 }

/-- The settings of the queue of a name. -/
def settings (c : Connection) (name : String) : Queue.Settings :=
  { Queue.Settings.plain c.kind name c.endpoint c.leaseSeconds with
    pollMillis := if c.kind = .polling then some c.pollMillis else none }

/-- The texts of a connection that fails, the outermost first. -/
def failureTexts (name : String) (f : Queue.Failure) : List String :=
  ["Failed to connect to queue " ++ name, f.message]

end Connection

end Leasework.CommandLine
