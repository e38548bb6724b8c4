import Federation.Connection.RemotePath

/-!
# Requests that wait side by side

Any number of requests may be under way on one connection, while replies, other messages and the end
of the session arrive. A step here is one that no other comes between, and a run is any list of
steps that can be taken one after the other.

A request that gives up drops its slot first and takes its id back in a step of its own, so a reply
may still arrive in between; it then finds the id but nobody to take it.
-/

namespace Federation

inductive RequestEnd where
  | notSent
  | waited (ending : WaitEnd)
  deriving DecidableEq, Repr

inductive RequestStage where
  /-- The id is registered, and nothing has been sent. -/
  | registered
  | waiting
  /-- The slot is dropped; the id may still be in the table. -/
  | leaving (ending : WaitEnd)
  | resolved (ending : RequestEnd)
  deriving DecidableEq, Repr

structure Requests where
  connection : Connection
  /-- The requests by their ids, the oldest first. -/
  stages : List (String × RequestStage) := []
  deriving DecidableEq, Repr

inductive RequestStep where
  /-- A request begins under an id that no other has. -/
  | register (id : String)
  /-- The frame of a request goes out, or does not. -/
  | send (id : String) (succeeds : Bool)
  | arrive (message : Message)
  /-- A request finds something in its slot. -/
  | wake (id : String)
  /-- A request finds its slot empty and waits no longer. -/
  | expire (id : String) (limit : Duration)
  /-- A request stops waiting, whatever its slot holds. -/
  | stop (id : String)
  /-- A request that gave up takes its id back. -/
  | leave (id : String)
  | lose (failure : Failure)
  /-- The end of a session reaches one id; the table is cleared one id after the other, and requests
  may begin in between. -/
  | drop (id : String)
  deriving DecidableEq, Repr

namespace Requests

def stage? (requests : Requests) (id : String) : Option RequestStage := requests.stages.lookup id

def setStage (requests : Requests) (id : String) (stage : RequestStage) : Requests :=
  { requests with
    stages := requests.stages.map fun entry => if entry.1 = id then (id, stage) else entry }

def changePending (requests : Requests) (change : PendingReplies → PendingReplies) : Requests :=
  { requests with
    connection := { requests.connection with pending := change requests.connection.pending } }

def register (requests : Requests) (id : String) : Requests :=
  let requests := requests.changePending (·.register id)
  { requests with stages := requests.stages ++ [(id, .registered)] }

/-- A frame that did not go out leaves nobody waiting. -/
def send (requests : Requests) (id : String) (succeeds : Bool) : Requests :=
  if succeeds then requests.setStage id .waiting
  else
    (requests.changePending fun pending => (pending.cancel id).abandon id).setStage id
      (.resolved .notSent)

def giveUp (requests : Requests) (id : String) (ending : WaitEnd) : Requests :=
  (requests.changePending (·.abandon id)).setStage id (.leaving ending)

/-- A reply ends the wait; a slot that was closed means that the session is lost. -/
def wake (requests : Requests) (id : String) : Option Requests :=
  match requests.connection.pending.slots.lookup id with
  | some (.answered message) =>
    some ((requests.changePending (·.abandon id)).setStage id
      (.resolved (.waited (.answered message))))
  | some .closed => some (requests.giveUp id .lost)
  | _ => none

def step (requests : Requests) : RequestStep → Option Requests
  | .register id => if (requests.stage? id).isNone then some (requests.register id) else none
  | .send id succeeds =>
    if requests.stage? id = some .registered then some (requests.send id succeeds) else none
  | .arrive message => some { requests with connection := requests.connection.deliver message }
  | .wake id => if requests.stage? id = some .waiting then requests.wake id else none
  | .expire id limit =>
    if requests.stage? id = some .waiting ∧
        requests.connection.pending.slots.lookup id = some .empty then
      some (requests.giveUp id (.expired limit))
    else none
  | .stop id =>
    if requests.stage? id = some .waiting then some (requests.giveUp id .stopping) else none
  | .leave id =>
    match requests.stage? id with
    | some (.leaving ending) =>
      some ((requests.changePending (·.cancel id)).setStage id (.resolved (.waited ending)))
    | _ => none
  | .lose failure => some { requests with connection := requests.connection.lose failure }
  | .drop id => some (requests.changePending (·.cancel id))

def run (requests : Requests) (steps : List RequestStep) : Option Requests :=
  steps.foldlM step requests

def start (connection : Connection) : Requests := { connection := { connection with pending := {} } }

end Requests

end Federation
