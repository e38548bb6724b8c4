import Federation.Garden

/-!
# Outcomes

An operation ends either in a response or in a failure that the requester is told about by kind and
text.
-/

namespace Federation

inductive FailureKind where
  | parse
  | validation
  | routing
  | remoteUnreachable
  | backend
  | internal
  deriving DecidableEq, Repr

namespace FailureKind

def name : FailureKind → String
  | .parse => "ParseError"
  | .validation => "ValidationError"
  | .routing => "RoutingError"
  | .remoteUnreachable => "RemoteUnreachableError"
  | .backend => "BackendError"
  | .internal => "InternalError"

def names : List (String × FailureKind) :=
  [("ParseError", .parse), ("ValidationError", .validation), ("RoutingError", .routing),
   ("RemoteUnreachableError", .remoteUnreachable), ("BackendError", .backend),
   ("InternalError", .internal)]

def decoder : Decoder FailureKind := .variant names

def toDocument (kind : FailureKind) : Document := .string kind.name

instance : Coded FailureKind := ⟨decoder, toDocument⟩

end FailureKind

structure Response where
  modelClass : String
  payload : Json
  deriving Repr, BEq

structure ErrorMessage where
  errorType : FailureKind
  message : String
  deriving DecidableEq, Repr

inductive Outcome where
  | success (response : Response)
  | failure (error : ErrorMessage)
  deriving Repr, BEq

/-! Messages name the class of what their body holds. -/

namespace ModelClass

def error : String := "error_message"
def operation : String := "Operation"
def event : String := "Event"
def ack : String := "Ack"
def job : String := "Job"

end ModelClass

namespace Response

def ack : Response := ⟨ModelClass.ack, .null⟩

def isEmpty (response : Response) : Bool := response.payload.isNull

def decoder : Decoder Response :=
  (Form.pure Response.mk
    |>.both (.required "model_class" .string)
    |>.both (.required "payload" .json)).decode "Response"

def toDocument (response : Response) : Document :=
  .object [
    ("model_class", .string response.modelClass), ("payload", response.payload.toDocument)]

instance : Coded Response := ⟨decoder, toDocument⟩

end Response

namespace ErrorMessage

def display (error : ErrorMessage) : String := error.errorType.name ++ ": " ++ error.message

def decoder : Decoder ErrorMessage :=
  (Form.pure ErrorMessage.mk
    |>.both (.required "error_type" FailureKind.decoder)
    |>.both (.required "message" .string)).decode "ErrorMessage"

def toDocument (error : ErrorMessage) : Document :=
  .object [("error_type", .string error.errorType.name), ("message", .string error.message)]

instance : Coded ErrorMessage := ⟨decoder, toDocument⟩

end ErrorMessage

namespace Outcome

def modelClass : Outcome → String
  | .success response => response.modelClass
  | .failure _ => ModelClass.error

def isSuccess : Outcome → Bool
  | .success _ => true
  | .failure _ => false

end Outcome

end Federation
