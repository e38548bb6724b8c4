import Federation.User

/-!
# Events

A garden publishes an event when something of its own has changed. The event names the garden it
comes from, and its payload names the garden that owns the record.
-/

namespace Federation

structure UserUpdate where
  garden : String
  user : SyncedUser
  timestamp : Instant
  deriving DecidableEq, Repr

inductive EventPayload where
  | userUpdated (update : UserUpdate)
  deriving DecidableEq, Repr

structure GardenEvent where
  garden : String
  timestamp : Instant
  payload : EventPayload
  deriving DecidableEq, Repr

namespace UserUpdate

def decoder : Decoder UserUpdate :=
  (Form.pure UserUpdate.mk
    |>.both (.required "garden" .string)
    |>.both (.required "user" SyncedUser.decoder)
    |>.both (.required "timestamp" .instant)).decode "UserUpdated"

def toDocument (update : UserUpdate) : Document :=
  .object [
    ("garden", .string update.garden),
    ("user", update.user.toDocument),
    ("timestamp", .string (Rfc3339.write update.timestamp))]

end UserUpdate

namespace EventPayload

def name : EventPayload → String
  | .userUpdated _ => "USER_UPDATED"

/-- The kinds of payload by name; each reads what stands beside the name. -/
def kindDecoder : Decoder Unit := .variant [("USER_UPDATED", ())]

def contentDecoder : Decoder EventPayload := UserUpdate.decoder.map .userUpdated

def expected : String := "adjacently tagged enum EventPayload"

/-- A member that counts: the name, the content, or the place where the text breaks off. -/
inductive Part where
  | tag (document : Document)
  | content (document : Document)
  | broken (fault : JsonFault)

def part? (member : String × Document) : Option Part :=
  if member.1 = "name" then some (.tag member.2)
  else if member.1 = "payload" then some (.content member.2)
  else member.2.break?.map .broken

/-- A name and a content; whichever comes first, a second one of either is refused. -/
def ofParts (source : Source) : List Part → Except DecodeError EventPayload
  | [] => .error (.missingField "name")
  | .broken fault :: _ => .error (.unreadable fault)
  | .tag tag :: rest => do
    kindDecoder source tag
    match rest with
    | [] => .error (.missingField "payload")
    | .tag _ :: _ => .error (.duplicateField "name")
    | .broken fault :: _ => .error (.unreadable fault)
    | .content content :: rest => do
      let payload ← contentDecoder source content
      finish payload rest
  | .content content :: rest =>
    match content.fault?, rest with
    | some fault, _ => .error (.unreadable fault)
    | none, [] => .error (.missingField "name")
    | none, .content _ :: _ => .error (.duplicateField "payload")
    | none, .broken fault :: _ => .error (.unreadable fault)
    | none, .tag tag :: rest => do
      kindDecoder source tag
      let payload ← contentDecoder .buffered content
      finish payload rest
where
  finish (payload : EventPayload) : List Part → Except DecodeError EventPayload
    | [] => .ok payload
    | .tag _ :: _ => .error (.duplicateField "name")
    | .content _ :: _ => .error (.duplicateField "payload")
    | .broken fault :: _ => .error (.unreadable fault)

def decoder : Decoder EventPayload := fun source document =>
  match document with
  | .object members => ofParts source (members.filterMap part?)
  | .array [] => .error (.invalidLength 0 expected)
  | .array (tag :: rest) => do
    kindDecoder source tag
    match rest with
    | [] => .error (.invalidLength 1 expected)
    | content :: rest' => do
      let payload ← contentDecoder source content
      if rest'.isEmpty then .ok payload
      else .error (Decoder.surplus source (rest'.length + 2) rest')
  | d => Decoder.mismatch expected d

def toDocument (payload : EventPayload) : Document :=
  match payload with
  | .userUpdated update =>
    .object [("name", .string payload.name), ("payload", update.toDocument)]

end EventPayload

namespace GardenEvent

def userUpdated (garden : String) (user : SyncedUser) (now : Instant) : GardenEvent :=
  ⟨garden, now, .userUpdated ⟨garden, user, now⟩⟩

def name (event : GardenEvent) : String := event.payload.name

def display (event : GardenEvent) : String := event.name ++ " from " ++ event.garden

def decoder : Decoder GardenEvent :=
  (Form.pure GardenEvent.mk
    |>.both (.required "garden" .string)
    |>.both (.required "timestamp" .instant)
    |>.both (.required "payload" EventPayload.decoder)).decode "GardenEvent"

def toDocument (event : GardenEvent) : Document :=
  .object [
    ("garden", .string event.garden),
    ("timestamp", .string (Rfc3339.write event.timestamp)),
    ("payload", event.payload.toDocument)]

instance : Coded GardenEvent := ⟨decoder, toDocument⟩

end GardenEvent

end Federation
