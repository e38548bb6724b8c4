import Federation.Event
import Federation.Failure.Basic
import Federation.Operation

/-!
# Messages between gardens

A message is a set of headers and a body. The class of what the body holds travels in a header,
never in the body, so the body of a reply is the bare payload, and nothing at all when there is no
payload.
-/

namespace Federation

/-- Sorted by name, each name once. -/
abbrev Headers := List (String × String)

namespace Headers

def modelClass : String := "model_class"
def replyTo : String := "reply-to"
def correlationId : String := "correlation-id"
def destination : String := "destination"
def gardenName : String := "garden_name"

def get? (headers : Headers) (name : String) : Option String := List.lookup name headers

def extend (headers others : Headers) : Headers :=
  others.foldl (fun acc h => insertMember h.1 h.2 acc) headers

/-- The headers of a frame, where the first of a repeated name counts. -/
def ofPairs (pairs : List (String × String)) : Headers := sortMembers pairs.reverse

/-- What a garden puts on everything it sends. -/
def ofGarden (garden : String) : Headers := [(gardenName, garden)]

def ofModelClass (name : String) : Headers := [(modelClass, name)]

/-- The headers of a reply: the garden's own, those that announce the payload on top, and of the
request nothing but the correlation id. -/
def reply (response request garden : Headers) : Headers :=
  let headers := garden.extend response
  match request.get? correlationId with
  | some id => insertMember correlationId id headers
  | none => headers

def ofEvent (garden : String) : Headers := reply (ofModelClass ModelClass.event) [] (ofGarden garden)

/-- Where a reply goes: to the address in the request, else to the default, else nowhere; an empty
address is none. -/
def resolveDestination (request : Headers) (default : Option String) : Option String :=
  ((request.get? replyTo).filter (· ≠ "")).orElse fun _ => default.filter (· ≠ "")

end Headers

structure Message where
  headers : Headers := []
  body : String := ""
  deriving DecidableEq, Repr

namespace Message

def header? (message : Message) (name : String) : Option String := message.headers.get? name

def modelClass? (message : Message) : Option String := message.header? Headers.modelClass

def isReply (message : Message) : Bool :=
  match message.modelClass? with
  | none => false
  | some name => name != ModelClass.operation && name != ModelClass.event

end Message

namespace Operation

def encode (operation : Operation) : String := Coded.text operation

def decode (body : String) : Except Failure Operation := do
  let operation : Operation ← (Coded.ofText body).mapError (.malformed "operation")
  if operation.operationType = "" then .error (.parse "Operation has no operation_type")
  else .ok operation

end Operation

namespace Outcome

def encode : Outcome → String
  | .success response => if response.isEmpty then "" else response.payload.text
  | .failure error => Coded.text error

/-- Rebuilds an outcome from the class and the body of a reply. -/
def decode (modelClass body : String) : Except Failure Outcome :=
  if modelClass = ModelClass.error then
    (Coded.ofText body).mapError (.malformed "error reply") |>.map .failure
  else if Text.isBlankText body then .ok (.success ⟨modelClass, .null⟩)
  else
    (Decoder.json.ofText body).mapError (.malformed (modelClass ++ " reply")) |>.map fun payload =>
      .success ⟨modelClass, payload⟩

end Outcome

namespace GardenEvent

def encode (event : GardenEvent) : String := Coded.text event

def decode (body : String) : Except Failure GardenEvent :=
  (Coded.ofText body).mapError (.malformed "event")

end GardenEvent

end Federation
