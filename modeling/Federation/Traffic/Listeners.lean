import Federation.Traffic.Exchange

/-!
# Listeners that wait for each other

Each garden has a listener that handles one message to its end before it takes the next. While it
waits for the reply to a request that it sent on, other requests stay in its queue; replies do not
go through the queue. A run is any list of steps.
-/

namespace Federation

/-- A message that a listener has sent on and waits for. -/
structure Serving where
  message : Message
  path : RemotePath
  id : String
  answer : Option Message := none
  deriving DecidableEq, Repr

structure Station where
  node : Node
  /-- The destinations whose messages come here. -/
  subscriptions : List String
  paths : List RemotePath
  queue : List Message := []
  serving : Option Serving := none

/-- Stations, and the messages on their way with their destinations. -/
structure ListenerTraffic where
  stations : List Station
  flights : List (String × Message) := []

inductive ListenerStep where
  /-- The message at this place of the list arrives. -/
  | deliver (index : Nat)
  /-- A listener takes the next message; a request that it sends on gets this id. -/
  | take (garden id : String)
  /-- A listener goes on with the reply that it has waited for. -/
  | resume (garden : String)
  deriving DecidableEq, Repr

abbrev Turn := Station × List (String × Message)

namespace Station

def path? (station : Station) (garden : String) : Option RemotePath :=
  station.paths.find? fun path => path.garden = garden

/-- A reply goes to the one who waits for it; everything else is queued. -/
def receive (station : Station) (message : Message) : Station :=
  if message.isReply then
    { station with
      serving := station.serving.map fun serving =>
        if serving.answer.isNone ∧ message.header? Headers.correlationId = some serving.id then
          { serving with answer := some message }
        else serving }
  else { station with queue := station.queue ++ [message] }

def reply (station : Station) (message : Message) (outcome : Outcome) : Turn :=
  (station,
    (Listener.reply? station.node.name station.node.sink message.headers outcome).toList)

def published (station : Station) (garden : String) (operation : Operation) :
    Option (String × Message) :=
  (station.path? garden).map fun path =>
    (path.destination, ⟨path.publishHeaders, operation.encode⟩)

/-- Handles an operation here; its pushes go out before the reply. -/
def handle (station : Station) (message : Message) (kind : OperationKind) (operation : Operation) :
    Turn :=
  let (effects, result, node) := station.node.act (Action.handle Action.route kind operation)
  let station := { station with node }
  let pushes := (effects.filterMap Effect.published?).filterMap fun (garden, operation) =>
    station.published garden operation
  let (station, sent) := station.reply message (Outcome.ofResult result)
  (station, pushes ++ sent)

def forward (station : Station) (message : Message) (garden id : String) (operation : Operation) :
    Turn :=
  match station.path? garden with
  | none => station.reply message (.failure (Failure.notConnected garden).toErrorMessage)
  | some path =>
    ({ station with serving := some { message, path, id } },
      [(path.destination, ⟨path.requestHeaders id, operation.encode⟩)])

/-- Handles an operation as far as that can be done without waiting. -/
def begin (station : Station) (message : Message) (id : String) (operation : Operation) : Turn :=
  match station.node.decide operation with
  | .error failure => station.reply message (.failure failure.toErrorMessage)
  | .ok (.handle kind) => station.handle message kind operation
  | .ok (.publish garden _ operation) =>
    let (after, sent) := station.reply message (.success .ack)
    (after, (station.published garden operation).toList ++ sent)
  | .ok (.request garden _ operation _) => station.forward message garden id operation

def take (station : Station) (id : String) : Option Turn :=
  match station.serving, station.queue with
  | none, message :: queue =>
    let station := { station with queue }
    if message.modelClass? = some ModelClass.event then
      let (_, _, node) := station.node.act (Listener.onEvent message.body)
      some ({ station with node }, [])
    else
      match Operation.decode message.body with
      | .error failure => some (station.reply message (.failure failure.toErrorMessage))
      | .ok operation => some (station.begin message id operation.withoutWaitTimeout)
  | _, _ => none

def resume (station : Station) : Option Turn := do
  let serving ← station.serving
  let answer ← serving.answer
  let outcome := Outcome.ofResult (serving.path.conclude (.answered answer))
  some ({ station with serving := none }.reply serving.message outcome)

/-- The listener waits for a reply that has not come. -/
def isWaiting (station : Station) : Bool := station.serving.any (·.answer.isNone)

def canMove (station : Station) : Bool :=
  match station.serving with
  | none => !station.queue.isEmpty
  | some serving => serving.answer.isSome

end Station

namespace ListenerTraffic

/-- A station takes its turn; what it sends is on its way. -/
def turn (traffic : ListenerTraffic) (garden : String) (move : Station → Option Turn) :
    Option ListenerTraffic := do
  let station ← traffic.stations.find? fun station => station.node.name = garden
  let (after, sent) ← move station
  some {
    stations := traffic.stations.map fun s => if s.node.name = garden then after else s
    flights := traffic.flights ++ sent }

/-- A message reaches every station that subscribes to its destination. -/
def deliver (traffic : ListenerTraffic) (index : Nat) : Option ListenerTraffic := do
  let (destination, message) ← traffic.flights[index]?
  some {
    stations := traffic.stations.map fun station =>
      if station.subscriptions.contains destination then station.receive message else station
    flights := traffic.flights.eraseIdx index }

def step (traffic : ListenerTraffic) : ListenerStep → Option ListenerTraffic
  | .deliver index => traffic.deliver index
  | .take garden id => traffic.turn garden (·.take id)
  | .resume garden => traffic.turn garden (·.resume)

def run (traffic : ListenerTraffic) (steps : List ListenerStep) : Option ListenerTraffic :=
  steps.foldlM step traffic

/-- A listener waits although nothing is on its way and no listener can do anything. -/
def isStuck (traffic : ListenerTraffic) : Bool :=
  traffic.flights.isEmpty && traffic.stations.all (fun station => !station.canMove) &&
    traffic.stations.any Station.isWaiting

end ListenerTraffic

end Federation
