import Federation.Connection.Opening
import Federation.Connection.Requests
import Federation.Listener

/-!
# What a garden does about what it hears

Frames arrive on the session of a garden, requests of the garden wait for replies, and a listener
handles the messages that are no replies, one after the other. All go on side by side: while a
message is handled, or anything else is done in the garden, anything may happen on the connection.
A request to another garden that is made meanwhile ends as the connection has it.
-/

namespace Federation

/-- What can happen on a connection. -/
inductive LineStep where
  /-- Something comes in on the session. -/
  | hear (incoming : Incoming)
  | request (step : RequestStep)
  | connect (network : Network)
  | disconnect

namespace Requests

def lineStep (requests : Requests) : LineStep → Option Requests
  | .hear incoming =>
    if requests.connection.isConnected then
      some { requests with connection := requests.connection.receive incoming }
    else none
  | .request step => requests.step step
  | .connect network =>
    some { requests with connection := (requests.connection.connect network).2 }
  | .disconnect => some { requests with connection := requests.connection.disconnect }

def lineRun (requests : Requests) (steps : List LineStep) : Option Requests :=
  steps.foldlM lineStep requests

/-- How the wait of a request ended. One that has not ended, or was never sent, counts as lost. -/
def endOf (requests : Requests) (id : String) : WaitEnd :=
  match requests.stage? id with
  | some (.resolved (.waited ending)) => ending
  | _ => .lost

end Requests

/-- A garden that reaches others over one connection. -/
structure Reception where
  node : Node
  paths : List RemotePath := []
  requests : Requests

inductive ReceptionStep where
  | line (step : LineStep)
  /-- Something is done in the garden; what it asks of another one is the request under `id`. -/
  | act (action : Action Unit) (meanwhile : List LineStep) (id : String)
  /-- The listener handles the next message. -/
  | handle (meanwhile : List LineStep) (id : String)

namespace Reception

def start (node : Node) (paths : List RemotePath) (settings : TransportSettings) : Reception :=
  { node, paths, requests := .start (.ofSettings node.name settings) }

/-- The garden with links over the connection as it is, to the gardens that have a path, when the
connection is as in `later` by the time a reply is due. -/
def linked (reception : Reception) (later : Requests) (id : String) : Node :=
  let link := fun path : RemotePath =>
    path.link reception.requests.connection fun _ _ _ => later.endOf id
  { reception.node with
    registry := reception.node.registry.map fun (name, entry) =>
      (name, { entry with
        link := (reception.paths.find? fun path => path.garden = name).map link })
    sink := { reception.node.sink with connected := later.connection.isConnected } }

def act (reception : Reception) (action : Action Unit) (meanwhile : List LineStep) (id : String) :
    Option Reception := do
  let later ← reception.requests.lineRun meanwhile
  some { reception with
    node := (action.run (reception.linked later id)).2
    requests := later }

/-- The first message that waits for the listener, and the garden without it. -/
def next? (reception : Reception) : Option (Message × Reception) :=
  match reception.requests.connection.inbound with
  | [] => none
  | message :: inbound =>
    let connection := { reception.requests.connection with inbound }
    some (message, { reception with requests := { reception.requests with connection } })

def step (reception : Reception) : ReceptionStep → Option Reception
  | .line step => do
    let requests ← reception.requests.lineStep step
    some { reception with requests }
  | .act action meanwhile id => reception.act action meanwhile id
  | .handle meanwhile id => do
    let (message, reception) ← reception.next?
    reception.act (Listener.onMessage Action.route message) meanwhile id

def run (reception : Reception) (steps : List ReceptionStep) : Option Reception :=
  steps.foldlM step reception

end Reception

end Federation
