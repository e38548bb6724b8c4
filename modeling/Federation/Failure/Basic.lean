import Federation.Failure.Store
import Federation.Outcome
import Federation.Time.Duration

/-!
# Failures

Everything that can go wrong in a garden. Each failure has a text, and a kind by which another
garden is told about it.
-/

namespace Federation

inductive Failure where
  | invalidConfig (reason : String)
  | invalidUrl (reason : String)
  | configLoad (reason : String)
  | configSave (reason : String)
  | connectionFailed (reason : String)
  | disconnected
  | timeout (limit : Duration)
  | tls (reason : String)
  | webSocket (reason : String)
  | broker (reason : String)
  | parse (reason : String)
  | validation (error : ValidationError)
  | routing (reason : String)
  | remoteUnreachable (reason : String)
  | backend (reason : String)
  | notFound (entity id : String)
  | remote (error : ErrorMessage)
  | database (reason : String)
  | internal (reason : String)
  | shuttingDown
  | channel (reason : String)
  deriving DecidableEq, Repr

namespace Failure

def message : Failure → String
  | .invalidConfig reason => "Invalid configuration: " ++ reason
  | .invalidUrl reason => "Invalid broker URL: " ++ reason
  | .configLoad reason => "Failed to load config: " ++ reason
  | .configSave reason => "Failed to save config: " ++ reason
  | .connectionFailed reason => "Connection failed: " ++ reason
  | .disconnected => "Disconnected from broker"
  | .timeout limit => "Timed out after " ++ limit.display
  | .tls reason => "TLS error: " ++ reason
  | .webSocket reason => "WebSocket error: " ++ reason
  | .broker reason => "Broker error: " ++ reason
  | .parse reason => "Parse error: " ++ reason
  | .validation error => error.message
  | .routing reason => "Routing error: " ++ reason
  | .remoteUnreachable reason => "Remote garden unreachable: " ++ reason
  | .backend reason => "Backend error: " ++ reason
  | .notFound entity id => entity ++ " not found: " ++ id
  | .remote error => error.display
  | .database reason => "Database error: " ++ reason
  | .internal reason => "Internal error: " ++ reason
  | .shuttingDown => "Garden is shutting down"
  | .channel reason => "Channel error: " ++ reason

def kind : Failure → FailureKind
  | .parse _ => .parse
  | .validation _ => .validation
  | .routing _ => .routing
  | .remoteUnreachable _ | .connectionFailed _ | .disconnected | .timeout _ => .remoteUnreachable
  | .backend _ | .notFound .. | .database _ => .backend
  | .remote error => error.errorType
  | _ => .internal

/-- What another garden is told; a failure that came from a garden is passed on as it is. -/
def toErrorMessage : Failure → ErrorMessage
  | .remote error => error
  | failure => ⟨failure.kind, failure.message⟩

theorem errorType_toErrorMessage (failure : Failure) :
    failure.toErrorMessage.errorType = failure.kind := by
  cases failure <;> rfl

theorem message_toErrorMessage (failure : Failure) :
    failure.toErrorMessage.message = failure.message ∨ failure = .remote failure.toErrorMessage := by
  cases failure with
  | remote error => exact .inr rfl
  | _ => exact .inl rfl

def isRetryable : Failure → Bool
  | .connectionFailed _ | .disconnected | .timeout _ | .webSocket _ | .remoteUnreachable _ => true
  | _ => false

def isConfigError : Failure → Bool
  | .invalidConfig _ | .invalidUrl _ | .configLoad _ | .configSave _ => true
  | _ => false

def ofStore : StoreError → Failure
  | .notFound entity id => .notFound entity id
  | error => .database error.message

def unknownOperation (operationType : String) : Failure :=
  .routing ("Unknown operation type '" ++ operationType ++ "'")

def noHandler (operationType : String) : Failure :=
  .routing ("No local handler for operation type '" ++ operationType ++ "'")

def unknownGarden (garden : String) : Failure :=
  .routing ("Unknown garden '" ++ garden ++ "'")

def notConnected (garden : String) : Failure :=
  .remoteUnreachable ("garden '" ++ garden ++ "' has no live connection")

/-- A garden that is registered but does not answer, and why. -/
def unreachable (garden reason : String) : Failure :=
  .remoteUnreachable ("garden '" ++ garden ++ "': " ++ reason)

def malformed (what : String) (error : DecodeError) : Failure :=
  .parse ("Malformed " ++ what ++ ": " ++ error.message)

end Failure

/-- What the requester is told about a result. -/
def Outcome.ofResult : Except Failure Response → Outcome
  | .ok response => .success response
  | .error cause => .failure cause.toErrorMessage

/-- Refusals that arise before an operation is run. -/
inductive CoreError where
  | malformed (reason : String)
  | unknownOperation (operationType : String)
  | validation (error : ValidationError)
  deriving DecidableEq, Repr

namespace CoreError

def message : CoreError → String
  | .malformed reason => "Malformed payload: " ++ reason
  | .unknownOperation operationType => "Unknown operation type: " ++ operationType
  | .validation error => "Validation error: " ++ error.message

def toFailure : CoreError → Failure
  | .malformed reason => .parse reason
  | .unknownOperation operationType => .unknownOperation operationType
  | .validation error => .validation error

end CoreError

end Federation
