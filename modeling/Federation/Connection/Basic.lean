import Federation.Config.Derived
import Federation.Connection.Replies
import Federation.Frame

/-!
# A connection to the broker

A connection holds at most one session. What is sent goes onto that session in order; what others
see is the state, which may say that the connection is down while a session that has ended is still
in its place.
-/

namespace Federation

inductive ConnectionState where
  | disconnected
  | connecting
  | connected
  deriving DecidableEq, Repr

namespace ConnectionState

def name : ConnectionState → String
  | .disconnected => "disconnected"
  | .connecting => "connecting"
  | .connected => "connected"

def title : ConnectionState → String
  | .disconnected => "Disconnected"
  | .connecting => "Connecting"
  | .connected => "Connected"

end ConnectionState

/-- The frames sent on a session, and what ended it, if it has ended. -/
structure Session where
  frames : List Frame := []
  ended : Option Failure := none
  deriving DecidableEq, Repr

structure Connection where
  name : String
  settings : TransportSettings := {}
  state : ConnectionState := .disconnected
  session : Option Session := none
  /-- Sessions that were replaced or given up, the oldest first. -/
  past : List Session := []
  /-- The destinations that every session subscribes to, in the order of their numbers. -/
  subscriptions : List String := []
  pending : PendingReplies := {}
  inbound : List Message := []
  attempts : Nat := 0
  deriving DecidableEq, Repr

namespace Session

def send (session : Session) (frame : Frame) : Except Failure Session :=
  match session.ended with
  | none => .ok { session with frames := session.frames ++ [frame] }
  | some failure => .error failure

end Session

namespace Connection

def ofSettings (name : String) (settings : TransportSettings) : Connection :=
  { name, settings, subscriptions := settings.subscriptions }

def isConnected (connection : Connection) : Bool := connection.state == .connected

/-- Every session that there has been, the oldest first. -/
def sessions (connection : Connection) : List Session :=
  connection.past ++ connection.session.toList

def sendFrame (destination : String) (message : Message) : Frame :=
  { command := .send
    headers := (Headers.destination, destination) :: message.headers
    body := message.body }

/-- A durable subscription to all messages of a destination. -/
def subscribeFrame (destination : String) (number : Nat) : Frame :=
  { command := .subscribe
    headers := [
      ("id", "sub-" ++ toString number), (Headers.destination, destination), ("ack", "auto"),
      ("subscription-type", "MULTICAST"), ("durable-subscription-name", destination)] }

/-- Sends a frame on the session, if the connection is up. -/
def write (connection : Connection) (frame : Frame) : Except Failure Connection :=
  match connection.session with
  | some session =>
    if connection.isConnected then
      (session.send frame).map fun session => { connection with session := some session }
    else .error .disconnected
  | none => .error .disconnected

def send (connection : Connection) (destination : String) (message : Message) :
    Except Failure Connection :=
  connection.write (sendFrame destination message)

/-- Adds a destination to the subscriptions and, when the connection is up, subscribes at once. -/
def subscribe (connection : Connection) (destination : String) :
    Except Failure Unit × Connection :=
  let known := connection.subscriptions
  let number := (known.idxOf? destination).getD known.length
  let connection :=
    if known.contains destination then connection
    else { connection with subscriptions := known ++ [destination] }
  if connection.session.isSome && connection.isConnected then
    match connection.write (subscribeFrame destination number) with
    | .ok connection => (.ok (), connection)
    | .error failure => (.error failure, connection)
  else (.ok (), connection)

/-- Puts the session away and drops all who wait for a reply on it. -/
def retire (connection : Connection) : Connection :=
  { connection with
    session := none
    past := connection.past ++ connection.session.toList
    state := .disconnected
    pending := connection.pending.clear }

/-- Makes room for a new session. Only a session that had not ended yet takes its waiters with
it. -/
def retireStale (connection : Connection) : Connection :=
  match connection.session with
  | none => connection
  | some session =>
    if session.ended.isNone then connection.retire
    else { connection with session := none, past := connection.past ++ [session] }

/-- Says goodbye to the broker, if it still listens, and goes down. -/
def disconnect (connection : Connection) : Connection :=
  let farewell := fun session : Session =>
    match session.send { command := .disconnect } with
    | .ok session => session
    | .error _ => session
  retire { connection with session := connection.session.map farewell }

/-- The session ends; nobody will get a reply on it any more. -/
def lose (connection : Connection) (failure : Failure) : Connection :=
  { connection with
    session := connection.session.map fun session => { session with ended := some failure }
    pending := connection.pending.clear
    state := .disconnected }

end Connection

end Federation
