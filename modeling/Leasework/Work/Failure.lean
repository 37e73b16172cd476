import Leasework.Queue.Failure

/-!
# `Leasework.Work.Failure`: why work on a request fails

A handler refuses a request, or a queue call around it fails. A failure of a queue
says at which of the three stages it happened.
-/

set_option autoImplicit false

namespace Leasework.Work

/-- How a handler ends without a response. -/
inductive Refusal where
  /-- The handler stopped because it was told to. -/
  | canceled
  /-- The handler cannot process the request. -/
  | failed (text : String)
deriving DecidableEq, Repr

/-- The wording of a refusal. -/
def Refusal.message : Refusal → String
  | .canceled => "Handler invocation was canceled"
  | .failed text => text

/-- A queue call that belongs to the work on a request. -/
inductive Stage where
  /-- Waiting for a request. -/
  | receive
  /-- Sending the response. -/
  | send
  /-- Deleting the request. -/
  | delete
deriving DecidableEq, Repr

/-- The name of a stage. -/
def Stage.name : Stage → String
  | .receive => "receive"
  | .send => "send"
  | .delete => "delete"

/-- Why work failed. -/
inductive Failure where
  /-- The handler refused a request; the request went back. -/
  | handler (messageId : String) (source : Refusal)
  /-- A queue call failed. -/
  | queue (stage : Stage) (source : Queue.Failure)
  /-- The handler could not start. -/
  | startUp (source : Refusal)
  /-- The settings are wrong. -/
  | settings (text : String)
deriving DecidableEq, Repr

/-- The wording of a failure, its source aside. -/
def Failure.message : Failure → String
  | .handler messageId _ => "Handler failed on message " ++ messageId
  | .queue stage _ => "Queue " ++ stage.name ++ " failed"
  | .startUp _ => "Handler initialization failed"
  | .settings text => "Invalid worker configuration: " ++ text

end Leasework.Work
