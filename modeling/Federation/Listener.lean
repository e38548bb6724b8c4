import Federation.Routing

/-!
# Messages that come in

An event goes to the users; anything else is taken as an operation, which is routed, and whose
outcome is sent back. Whatever goes wrong becomes an outcome or a line in the log.
-/

namespace Federation.Listener

open Federation.Action

/-- A text in a document, found by the names that lead to it. -/
def textAt (document : Json) : List String → Option String
  | [] => document.string?
  | name :: path => (document.get? name).bind fun inner => textAt inner path

/-- The note on an event that cannot be read, with the name and the garden it seems to have. -/
def unreadableEvent (body : String) : String :=
  let document := (Json.read? body).getD .null
  let name := (textAt document ["payload", "name"]).getD "unknown"
  let garden := (textAt document ["garden"]).getD "unknown"
  "Error parsing " ++ name ++ " event from garden " ++ garden

def onEvent (body : String) : Action Unit :=
  match GardenEvent.decode body with
  | .ok event => Users.handleEvent event
  | .error _ => log (unreadableEvent body)

/-- Whether an outcome is worth a reply: an empty one is only sent to a given address. -/
def isDue (request : Headers) (outcome : Outcome) : Bool :=
  match outcome with
  | .success response => !response.isEmpty || (request.get? Headers.replyTo).isSome
  | .failure _ => true

/-- The reply to a request, with the destination it goes to. -/
def reply? (garden : String) (sink : Sink) (request : Headers) (outcome : Outcome) :
    Option (String × Message) :=
  if isDue request outcome && sink.connected then
    (request.resolveDestination sink.default).map fun destination =>
      (destination, {
        headers := Headers.reply (.ofModelClass outcome.modelClass) request (.ofGarden garden)
        body := outcome.encode })
  else none

/-- Runs the operation in a body. The bound on a wait is the sender's own. -/
def execute (route : Operation → Action Response) (body : String) : Action Response := do
  match Operation.decode body with
  | .ok operation => route operation.withoutWaitTimeout
  | .error failure => throw failure

def outcome (route : Operation → Action Response) (body : String) : Action Outcome :=
  settle (Outcome.success <$> execute route body) fun failure =>
    pure (.failure failure.toErrorMessage)

def onRequest (route : Operation → Action Response) (message : Message) : Action Unit := do
  let outcome ← outcome route message.body
  let node ← get
  match reply? node.name node.sink message.headers outcome with
  | some (destination, answer) => emit (.send destination answer)
  | none => pure ()

def onMessage (route : Operation → Action Response) (message : Message) : Action Unit :=
  if message.modelClass? = some ModelClass.event then onEvent message.body
  else onRequest route message

def run (route : Operation → Action Response) (messages : List Message) : Action Unit :=
  messages.forM (onMessage route)

end Federation.Listener
