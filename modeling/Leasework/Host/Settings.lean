import Leasework.Crew.Options
import Leasework.Handler.Choice
import Leasework.Host.Deployment
import Leasework.Queue.Settings
import Leasework.Toml.Text
import Leasework.Work.Failure

/-!
# `Leasework.Host.Settings`: the settings file of the host

The file says how many consumers run, which handler they use, and the two queues they
work between. Loading it takes three steps: read the text, fill in the endpoints that
were left out, and check both queues. The request queue is checked first.
-/

set_option autoImplicit false

namespace Leasework.Host

/-- The settings of the host. -/
structure Settings where
  /-- How the consumers run. -/
  crew : Crew.Options
  /-- The handler of requests. -/
  handler : Handler.Choice
  /-- The queue that requests come from. -/
  requests : Queue.Settings
  /-- The queue that responses go to. -/
  responses : Queue.Settings
deriving DecidableEq, Repr

/-- Which of the two queues a problem is about. -/
inductive QueueRole where
  /-- The queue that requests come from. -/
  | request
  /-- The queue that responses go to. -/
  | response
deriving DecidableEq, Repr

/-- The name of a role. -/
def QueueRole.name : QueueRole → String
  | .request => "request"
  | .response => "response"

/-- Why settings cannot be loaded. -/
inductive LoadFault where
  /-- The file cannot be read as text. -/
  | unreadable (path : String)
  /-- The text is no document with these settings. -/
  | unparsable
  /-- A queue has a problem. -/
  | badQueue (role : QueueRole) (problem : Queue.Problem)
deriving DecidableEq, Repr

/-- The wording of a load fault. -/
def LoadFault.message : LoadFault → String
  | .unreadable path => "Failed to read worker configuration " ++ path
  | .unparsable => "Failed to parse worker configuration"
  | .badQueue role problem =>
    (Work.Failure.settings (role.name ++ " queue: " ++ problem.toFailure.message)).message

namespace Settings

/-- Reads the two queues. -/
def readQueues? (rules : ReadingRules) (d : Document) :
    Option (Queue.Settings × Queue.Settings) := do
  let row ← d.row? rules ["request", "response"]
  let requests ← Document.required? (row "request") (Queue.Settings.read? rules)
  let responses ← Document.required? (row "response") (Queue.Settings.read? rules)
  some (requests, responses)

/-- Reads the settings from a document. -/
def read? (rules : ReadingRules) (d : Document) : Option Settings := do
  let row ← d.row? rules ["worker", "handler", "queues"]
  let crew ← Document.orElse? (row "worker") .default (Crew.Options.read? rules)
  let handler ← Document.required? (row "handler") (Handler.Choice.read? rules)
  let (requests, responses) ← Document.required? (row "queues") (readQueues? rules)
  some { crew, handler, requests, responses }

/-- Writes the settings as a document. -/
def toDocument (s : Settings) : Document :=
  .table
    [("worker", s.crew.toDocument), ("handler", s.handler.toDocument),
      ("queues",
        .table [("request", s.requests.toDocument), ("response", s.responses.toDocument)])]

/-- Fills in the endpoint of a queue when it is blank and the deployment knows one. -/
def fillEndpoint (d : Deployment) (vars : Variables) (q : Queue.Settings) : Queue.Settings :=
  if Text.allBlank q.endpoint then
    match d.endpointFor? vars q.kind with
    | some endpoint => { q with endpoint }
    | none => q
  else q

/-- Fills in the endpoints that were left out. -/
def complete (d : Deployment) (vars : Variables) (s : Settings) : Settings :=
  { s with
    requests := fillEndpoint d vars s.requests
    responses := fillEndpoint d vars s.responses }

/-- The first problem of the two queues, the request queue first. -/
def problem? (s : Settings) : Option (QueueRole × Queue.Problem) :=
  match s.requests.problem? with
  | some p => some (.request, p)
  | none => s.responses.problem?.map (QueueRole.response, ·)

/-- Reads, completes and checks the settings of a document. -/
def ofDocument (rules : ReadingRules) (d : Deployment) (vars : Variables) (doc : Document) :
    Except LoadFault Settings :=
  match read? rules doc with
  | none => .error .unparsable
  | some s =>
    let s := s.complete d vars
    match s.problem? with
    | some (role, p) => .error (.badQueue role p)
    | none => .ok s

/-- Loads the settings from the text of a file. -/
def ofText (d : Deployment) (vars : Variables) (text : String) : Except LoadFault Settings :=
  match Toml.read? text with
  | none => .error .unparsable
  | some doc => ofDocument .toml d vars doc

/-- Loads the settings from a file: `none` stands for a file that is not there. -/
def ofFile (d : Deployment) (vars : Variables) (path : String) (content : Option (List UInt8)) :
    Except LoadFault Settings :=
  match content.bind Text.decode? with
  | none => .error (.unreadable path)
  | some text => ofText d vars text

end Settings

end Leasework.Host
