import Federation.Traffic.Exchange

/-!
# User pushes between gardens

Gardens push their users to each other. What has been published and has not arrived yet is on its
way; it arrives in any order, and may be repeated or lost. A run is any list of steps.
-/

namespace Federation

/-- Gardens, and the operations on their way to them. -/
structure UserTraffic where
  gardens : List Node
  flights : List (String × Operation) := []

inductive UserTrafficStep where
  | push (garden : String)
  /-- The operation at this place of the list arrives. -/
  | deliver (index : Nat)
  | duplicate (index : Nat)
  | drop (index : Nat)
  | handle (garden : String) (event : GardenEvent)
  deriving DecidableEq, Repr

namespace UserTraffic

def garden? (traffic : UserTraffic) (name : String) : Option Node :=
  traffic.gardens.find? fun node => node.name = name

def setGarden (traffic : UserTraffic) (name : String) (node : Node) : UserTraffic :=
  { traffic with gardens := traffic.gardens.map fun n => if n.name = name then node else n }

/-- A garden runs an action; what it publishes is on its way. -/
def act (traffic : UserTraffic) (name : String) (action : Action α) : Option UserTraffic := do
  let node ← traffic.garden? name
  let (effects, _, after) := node.act action
  let traffic := traffic.setGarden name after
  some { traffic with flights := traffic.flights ++ effects.filterMap Effect.published? }

def step (traffic : UserTraffic) : UserTrafficStep → Option UserTraffic
  | .push garden => traffic.act garden (Users.push Action.route)
  | .deliver index => do
    let (garden, operation) ← traffic.flights[index]?
    { traffic with flights := traffic.flights.eraseIdx index }.act garden
      (Action.route operation.withoutWaitTimeout)
  | .duplicate index => do
    let flight ← traffic.flights[index]?
    some { traffic with flights := traffic.flights ++ [flight] }
  | .drop index => some { traffic with flights := traffic.flights.eraseIdx index }
  | .handle garden event => traffic.act garden (Users.handleEvent event)

def run (traffic : UserTraffic) (steps : List UserTrafficStep) : Option UserTraffic :=
  steps.foldlM step traffic

end UserTraffic

end Federation
