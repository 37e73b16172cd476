import Leasework.Host.Variables
import Leasework.Queue.Kind
import Leasework.Text.Blank
import Leasework.Text.Lowercase

/-!
# `Leasework.Host.Deployment`: where the host runs

A variable names the deployment; without it the host is in development. The
deployment decides the endpoint of a queue whose settings leave it out, and the form
of the logs. Variables of their own come before what the deployment says.
-/

set_option autoImplicit false

namespace Leasework.Host

/-- Where the host runs. -/
inductive Deployment where
  /-- Serves real traffic. -/
  | production
  /-- Serves a rehearsal of production. -/
  | staging
  /-- Runs on a developer's machine, beside local backends. -/
  | development
deriving DecidableEq, Repr

namespace Deployment

/-- The name of a deployment. -/
def name : Deployment → String
  | .production => "production"
  | .staging => "staging"
  | .development => "development"

/-- The deployment of a name. -/
def ofName? (s : String) : Option Deployment :=
  if s = "production" then some .production
  else if s = "staging" then some .staging
  else if s = "development" then some .development
  else none

/-- A name that no deployment has. -/
structure Unknown where
  /-- The name, trimmed and in lower case. -/
  name : String
deriving DecidableEq, Repr

/-- The wording when no deployment has the name. -/
def Unknown.message (u : Unknown) : String := "Invalid environment: " ++ u.name

/-- The deployment that the variables name, whatever white space is around the name and
whatever case it is in. -/
def ofVariables (vars : Variables) : Except Unknown Deployment :=
  let name := Text.lowercase (Text.trim ((vars.text? "APP_ENV").getD "development"))
  match ofName? name with
  | some d => .ok d
  | none => .error ⟨name⟩

/-- The variable that names the endpoint of a kind of queue. -/
def endpointVariable : Queue.Kind → String
  | .polling => "SQS_ENDPOINT"
  | .broker => "REDIS_URL"

/-- The endpoint of a local backend. -/
def localEndpoint : Queue.Kind → String
  | .polling => "http://localhost:4566"
  | .broker => "redis://localhost:6379"

/-- The endpoint of a queue whose settings leave it out. -/
def endpointFor? (d : Deployment) (vars : Variables) (kind : Queue.Kind) : Option String :=
  match vars.text? (endpointVariable kind) with
  | some endpoint => some endpoint
  | none => if d = .development then some (localEndpoint kind) else none

/-- Whether logs are written as JSON. -/
def logsJson (d : Deployment) (vars : Variables) : Bool :=
  match vars.text? "LOG_FORMAT" with
  | some format => Text.lowerAscii (Text.trim format) = "json"
  | none => d = .production

/-- The address of the agent that takes metrics, if one is named. -/
def metricsAddress? (vars : Variables) : Option String :=
  (vars.text? "DD_AGENT_HOST").map fun host =>
    host ++ ":" ++ (vars.text? "DD_DOGSTATSD_PORT").getD "8125"

theorem ofName?_name (d : Deployment) : ofName? d.name = some d := by cases d <;> rfl

end Deployment

end Leasework.Host
