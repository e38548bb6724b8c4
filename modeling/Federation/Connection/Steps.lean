import Federation.Connection.Opening

/-!
# A connection over time

A connection is brought up, used, lost and given up, any number of times and in any order. A session
may also break before anyone notices: the connection is shown as up, and what is sent fails.
-/

namespace Federation

inductive ConnectionStep where
  | connect (network : Network)
  | subscribe (destination : String)
  | send (destination : String) (message : Message)
  /-- Something comes in, which may be the end of the session. -/
  | hear (incoming : Incoming)
  /-- The session breaks, and nobody has noticed yet. -/
  | snap (failure : Failure)
  | disconnect

namespace Session

/-- The subscriptions sent on the session, in their order. -/
def subscribing (session : Session) : List Frame :=
  session.frames.filter fun frame => frame.command = .subscribe

def subscriptionIds (session : Session) : List String :=
  session.subscribing.filterMap fun frame => frame.get? "id"

def destinations (session : Session) : List String :=
  session.subscribing.filterMap fun frame => frame.get? Headers.destination

end Session

namespace Connection

/-- The session, while it is up. -/
def live? (connection : Connection) : Option Session :=
  if connection.isConnected then connection.session.filter fun session => session.ended.isNone
  else none

def snap (connection : Connection) (failure : Failure) : Connection :=
  { connection with
    session := connection.session.map fun session => { session with ended := some failure } }

def step (connection : Connection) : ConnectionStep → Connection
  | .connect network => (connection.connect network).2
  | .subscribe destination => (connection.subscribe destination).2
  | .send destination message =>
    match connection.send destination message with
    | .ok connection => connection
    | .error _ => connection
  | .hear incoming => if connection.isConnected then connection.receive incoming else connection
  | .snap failure => connection.snap failure
  | .disconnect => connection.disconnect

def run (connection : Connection) (steps : List ConnectionStep) : Connection :=
  steps.foldl step connection

end Connection

end Federation
