import Federation.Connection.RemotePath
import Federation.Listener

/-!
# A request over the wire

A request leaves one garden as a frame, is handed on by the broker, is served by the listener of
another garden, and the reply comes back in the same way. The broker keeps the headers and the body
of what it hands on.
-/

namespace Federation

namespace Frame

/-- What the subscriber of a destination gets when this frame is sent to it. -/
def relayed? (frame : Frame) : Option Message :=
  match Frame.decode frame.encode with
  | .ok (some sent) =>
    match Frame.decode { sent with command := .message }.encode with
    | .ok (some received) => some (.ofFrame received)
    | _ => none
  | _ => none

end Frame

/-- It is a reply, and to the request with this id. -/
def Message.isReplyTo (message : Message) (id : String) : Bool :=
  message.isReply && message.header? Headers.correlationId == some id

namespace Effect

def sent? : Effect → Option (String × Message)
  | .send destination message => some (destination, message)
  | _ => none

def published? : Effect → Option (String × Operation)
  | .publish garden operation => some (garden, operation)
  | _ => none

end Effect

namespace Node

/-- Runs an action; the first part of the result is what it does to others. -/
def act (node : Node) (action : Action α) : List Effect × Except Failure α × Node :=
  let (result, after) := action.run node
  (after.effects.drop node.effects.length, result, after)

/-- Serves one message; the first part of the result is what it sends. -/
def serve (node : Node) (message : Message) : List (String × Message) × Node :=
  let (effects, _, after) := node.act (Listener.onMessage Action.route message)
  (effects.filterMap Effect.sent?, after)

end Node

namespace RemotePath

def requestFrame (path : RemotePath) (id : String) (operation : Operation) : Frame :=
  Connection.sendFrame path.destination ⟨path.requestHeaders id, operation.encode⟩

/-- What arrives, of all that was sent, where the replies go. -/
def arriving (path : RemotePath) (sent : List (String × Message)) : List Message :=
  sent.filterMap fun (destination, message) =>
    if destination = path.replyDestination then
      (Connection.sendFrame destination message).relayed?
    else none

/-- The reply under `id` among what was sent, as it arrives. -/
def replyAmong? (path : RemotePath) (id : String) (sent : List (String × Message)) :
    Option Message :=
  (path.arriving sent).find? (·.isReplyTo id)

/-- Has a request served by `remote`: the reply, if there is one, and the remote garden
afterwards. -/
def exchange (path : RemotePath) (id : String) (remote : Node) (operation : Operation) :
    Option Message × Node :=
  match (path.requestFrame id operation).relayed? with
  | none => (none, remote)
  | some message =>
    let (sent, remote) := remote.serve message
    (path.replyAmong? id sent, remote)

/-- The link over which `remote` answers requests as it is now. One that is never answered counts as
lost. -/
def linkTo (path : RemotePath) (id : String) (remote : Node) : Link where
  connected := true
  request _ operation _ :=
    path.conclude (((path.exchange id remote operation).1.map WaitEnd.answered).getD .lost)
  publish _ _ := .ok ()

end RemotePath

end Federation
