import Federation.Config.Validation
import Federation.Connection.Opening
import Federation.Connection.RemotePath
import Federation.Lifecycle
import Federation.Routing

/-!
# A garden as a whole

An agent takes its name, its remote gardens and its broker from a configuration. On its start it
writes itself and the configured remote gardens into the store, and then knows every remote garden
in the store; a path over the broker leads only to those that are configured.
-/

namespace Federation

namespace GardenConfig

def remotePath (config : GardenConfig) (remote : RemoteGardenSettings) : RemotePath where
  garden := remote.name
  destination := remote.operationsQueue
  replyDestination := config.broker.replyDestination.getD ""
  sender := config.garden.name

/-- Stores the configured remote gardens and lists all remote gardens that are known then. -/
def seedRegistry (config : GardenConfig) (link : RemotePath → Link) : Action Registry := do
  config.remoteGardens.forM fun remote => Action.change (·.putGarden remote.toGarden)
  let configured : Registry := config.remoteGardens.foldl
    (fun registry remote =>
      registry.register remote.toGarden (some (link (config.remotePath remote)))) []
  let stored ← Action.query (·.remoteGardens)
  pure (stored.foldl
    (fun registry garden =>
      if registry.contains garden.name then registry else registry.register garden none)
    configured)

def start (config : GardenConfig) (link : RemotePath → Link) : Action Unit := do
  match config.validate with
  | .error failure => throw failure
  | .ok () =>
    Action.change (·.putGarden config.localGarden)
    let registry ← config.seedRegistry link
    modify fun node => {
      node with
      name := config.garden.name
      handlers := .userSync :: Jobs.kinds
      registry }

end GardenConfig

structure Agent where
  config : GardenConfig
  node : Node
  /-- There is a connection between a start and the next shutdown. -/
  connection : Option Connection := none
  lifecycles : Lifecycles := {}
  lifecycle : Lifecycle := Lifecycles.root

structure AgentStatus where
  garden : String
  connection : ConnectionState
  remoteGardens : List String
  deriving DecidableEq, Repr

namespace Agent

/-- An agent that stops with its parent, but can also be stopped alone. -/
def ofConfig (config : GardenConfig) (node : Node) (parent : Lifecycles) : Agent :=
  let (lifecycle, lifecycles) := parent.child Lifecycles.root
  { config, node, lifecycles, lifecycle }

def isStopped (agent : Agent) : Bool := agent.lifecycles.isStopped agent.lifecycle

def connectionState (agent : Agent) : ConnectionState :=
  (agent.connection.map Connection.state).getD .disconnected

/-- Starts the agent with a connection that is still down, and tells its name. -/
def start (agent : Agent) : Except Failure String × Agent :=
  if agent.connection.isSome then (.error (.internal "garden agent already started"), agent)
  else
    let name := agent.config.garden.name
    let connection := Connection.ofSettings name agent.config.transport
    let link := fun path : RemotePath => path.link connection fun _ _ _ => .lost
    match (agent.config.start link).run agent.node with
    | (.error failure, node) => (.error failure, { agent with node })
    | (.ok (), node) => (.ok name, { agent with node, connection := some connection })

def act (agent : Agent) (action : Action α) : Except Failure α × Agent :=
  let (result, node) := action.run agent.node
  (result, { agent with node })

def status (agent : Agent) : AgentStatus where
  garden := agent.node.name
  connection := agent.connectionState
  remoteGardens := agent.node.registry.names

/-- What one who waits for the connection learns now, if anything. -/
def readiness? (agent : Agent) : Option Readiness :=
  if agent.connectionState = .connected then some .ready
  else if agent.isStopped then some .stopped
  else none

def stop (agent : Agent) : Agent :=
  { agent with lifecycles := agent.lifecycles.stop agent.lifecycle }

def stopAll (agent : Agent) : Agent :=
  { agent with lifecycles := agent.lifecycles.stop Lifecycles.root }

def shutdown (agent : Agent) : Agent := { agent.stop with connection := none }

/-- How many follow the events of the garden: the forwarder, while the agent runs. -/
def subscribers (agent : Agent) : Nat :=
  if agent.connection.isSome && !agent.isStopped then 1 else 0

end Agent

end Federation
