import Federation.Jobs
import Federation.Users

/-!
# Routing

An operation is handled here when it names no garden or this one, and else goes over the link of the
garden it names. Only its kind, its target, the handlers and the registry decide.
-/

namespace Federation

inductive Route where
  | handle (kind : OperationKind)
  | publish (garden : String) (link : Link) (operation : Operation)
  | request (garden : String) (link : Link) (operation : Operation) (wait : Option Duration)

namespace Node

/-- Adds handlers for kinds, each of which must not have one yet. -/
def registerHandlers (handlers : List OperationKind) :
    List OperationKind → Except Failure (List OperationKind)
  | [] => .ok handlers
  | kind :: rest =>
    if handlers.contains kind then
      .error (.invalidConfig ("handler for " ++ kind.name ++ " registered twice"))
    else registerHandlers (handlers ++ [kind]) rest

/-- Where an operation goes. The bound on the wait is this garden's own and does not travel. -/
def decide (node : Node) (operation : Operation) : Except Failure Route :=
  match operation.kind? with
  | none => .error (.unknownOperation operation.operationType)
  | some kind =>
    if operation.isLocalTo node.name then
      if node.handlers.contains kind then .ok (.handle kind) else .error (.noHandler kind.name)
    else
      let target := operation.target?.getD ""
      match node.registry.get? target with
      | none => .error (.unknownGarden target)
      | some entry =>
        match Registry.liveLink? entry with
        | none => .error (.notConnected target)
        | some link =>
          if kind.expectsReply then
            .ok (.request target link operation.withoutWaitTimeout operation.waitTimeout?)
          else .ok (.publish target link operation.withoutWaitTimeout)

end Node

namespace Action

/-- Sends an operation over a link without waiting for an answer. -/
def publish (garden : String) (link : Link) (operation : Operation) : Action Unit := do
  let history := (← get).effects
  emit (.publish garden operation)
  match link.publish history operation with
  | .ok () => pure ()
  | .error failure => throw failure

def request (garden : String) (link : Link) (operation : Operation) (wait : Option Duration) :
    Action Response := do
  let history := (← get).effects
  emit (.request garden operation wait)
  match link.request history operation wait with
  | .ok response => pure response
  | .error failure => throw failure

/-- Routes an operation; `handle` does what is to be done here. -/
def routeBy (handle : OperationKind → Operation → Action Response) (operation : Operation) :
    Action Response := do
  match (← get).decide operation with
  | .error failure => throw failure
  | .ok (.handle kind) => handle kind operation
  | .ok (.publish garden link operation) => do
    publish garden link operation
    pure .ack
  | .ok (.request garden link operation wait) => request garden link operation wait

/-- The handlers of a garden, given how operations that they send are routed. -/
def handle (route : Operation → Action Response) (kind : OperationKind) (operation : Operation) :
    Action Response :=
  match kind with
  | .userSync => Users.handle route operation
  | kind => Jobs.handle kind operation

/-- Routes an operation, with at most `depth` operations that handle each other. A push that comes
back to its own garden would go on for ever; only then the depth matters. -/
def routeWithin : Nat → Operation → Action Response
  | 0, _ => throw (.internal "operations nest too deeply")
  | depth + 1, operation => routeBy (handle (routeWithin depth)) operation

/-- The depth that is always enough when no garden pushes to itself, and more. -/
def maxDepth : Nat := 8

def route (operation : Operation) : Action Response := routeWithin maxDepth operation

end Action

end Federation
