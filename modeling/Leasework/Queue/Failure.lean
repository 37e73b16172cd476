/-!
# `Leasework.Queue.Failure`: why a queue call fails

Callers tell three classes apart: the call was canceled, the backend asks to slow
down, and everything else. `Failure.isThrottling` is the middle class; only those
failures are ever tried again.
-/

set_option autoImplicit false

namespace Leasework.Queue

/-- A call of the polling service. -/
inductive ServiceCall where
  /-- Finds the address of a queue. -/
  | getQueueUrl
  /-- Asks for messages. -/
  | receiveMessage
  /-- Sends a message. -/
  | sendMessage
  /-- Deletes a message. -/
  | deleteMessage
  /-- Sets how long a message stays hidden. -/
  | changeVisibility
deriving DecidableEq, Repr

/-- What kind of error a broker reports. -/
inductive BrokerFault where
  /-- The broker is still loading its data. -/
  | loading
  /-- The request meets a slot that is being moved. -/
  | tryAgain
  /-- The link to the broker's leader is down. -/
  | masterDown
  /-- The cluster does not serve requests. -/
  | clusterDown
  /-- Any other kind, by its name. -/
  | other (name : String)
deriving DecidableEq, Repr

/-- The name of a kind of broker error. -/
def BrokerFault.name : BrokerFault → String
  | .loading => "BusyLoadingError"
  | .tryAgain => "TryAgain"
  | .masterDown => "MasterDown"
  | .clusterDown => "ClusterDown"
  | .other name => name

/-- The kind of broker error that has a name. -/
def BrokerFault.named (name : String) : BrokerFault :=
  if name = "BusyLoadingError" then .loading
  else if name = "TryAgain" then .tryAgain
  else if name = "MasterDown" then .masterDown
  else if name = "ClusterDown" then .clusterDown
  else .other name

/-- Kinds of broker errors that pass by waiting. -/
def BrokerFault.isThrottling : BrokerFault → Bool
  | .loading | .tryAgain | .masterDown | .clusterDown => true
  | .other _ => false

/-- Why a queue call failed. -/
inductive Failure where
  /-- The call saw its cancellation before it was done. -/
  | canceled
  /-- The backend asks to slow down. -/
  | throttled (text : String)
  /-- The settings of the queue are missing or wrong. -/
  | misconfigured (reason : String)
  /-- The lease ended, or the message belongs to another consumer by now. -/
  | leaseLost (id : String)
  /-- Any failure of a backend that has no case of its own. -/
  | backend (text : String)
  /-- A call of the polling service failed, perhaps with an error code. -/
  | service (call : ServiceCall) (code : Option String)
  /-- The broker reported an error. -/
  | broker (fault : BrokerFault) (text : String)
deriving DecidableEq, Repr

namespace Failure

/-- The error codes with which the polling service asks to slow down. -/
def throttlingCodes : List String :=
  ["RequestThrottled", "ThrottlingException", "KmsThrottled", "OverLimit"]

/-- The call was canceled. -/
def isCanceled : Failure → Bool
  | .canceled => true
  | _ => false

/-- The backend asks to slow down. -/
def isThrottling : Failure → Bool
  | .throttled _ => true
  | .service _ (some code) => throttlingCodes.contains code
  | .broker fault _ => fault.isThrottling
  | _ => false

/-- The wording of a failure. -/
def message : Failure → String
  | .canceled => "Queue operation was canceled"
  | .throttled text => "Queue backend is throttling requests: " ++ text
  | .misconfigured reason => "Invalid queue configuration: " ++ reason
  | .leaseLost id => "Lease on message " ++ id ++ " has been lost"
  | .backend text => "Queue backend error: " ++ text
  | .service .getQueueUrl _ => "Failed to resolve SQS queue URL"
  | .service .receiveMessage _ => "Failed to receive messages from SQS"
  | .service .sendMessage _ => "Failed to send message to SQS"
  | .service .deleteMessage _ => "Failed to delete message from SQS"
  | .service .changeVisibility _ => "Failed to change SQS message visibility"
  | .broker _ text => "Redis error: " ++ text

end Failure

end Leasework.Queue
