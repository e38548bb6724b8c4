import Federation.Message

/-!
# Events on their way to the broker

A subscriber of the event bus keeps as many events as the bus has room for; when more have been
published than that, the oldest are lost and the subscriber is told so once. A forwarder sends the
events of its own garden to the default destination.
-/

namespace Federation.Forwarding

/-- The room of a bus: the wanted room, rounded up to a power of two. -/
def room (capacity : Nat) : Nat := if capacity ≤ 1 then 1 else 1 <<< (Nat.log2 (capacity - 1) + 1)

/-- The events a subscriber still finds, and whether it missed any. -/
def received (capacity : Nat) (events : List GardenEvent) : List GardenEvent × Bool :=
  let room := room capacity
  (events.drop (events.length - room), room < events.length)

def forward (garden : String) (default : Option String) (event : GardenEvent) :
    Option (String × Message) :=
  if event.garden = garden then
    default.map fun destination =>
      (destination, { headers := Headers.ofEvent garden, body := event.encode })
  else none

def behind : String := "Event forwarder fell behind, events dropped"

/-- All that is sent, and the lines logged, until the bus closes. -/
def run (garden : String) (default : Option String) (capacity : Nat) (events : List GardenEvent) :
    List (String × Message) × List String :=
  let (kept, missed) := received capacity events
  (kept.filterMap (forward garden default), if missed then [behind] else [])

end Federation.Forwarding
