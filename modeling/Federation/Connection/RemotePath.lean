import Federation.Connection.Dispatch
import Federation.Registry

/-!
# Reaching a garden over the broker

Operations for a remote garden go to its destination. A request leaves a return address and an id,
and then waits: for the reply, for the time it was given, for the end of the session or of this
garden. Whatever ends the wait, the id is taken back.
-/

namespace Federation

structure RemotePath where
  garden : String
  destination : String
  replyDestination : String
  /-- The garden that sends. -/
  sender : String
  deriving DecidableEq, Repr

inductive WaitEnd where
  | answered (message : Message)
  | expired (limit : Duration)
  | lost
  | stopping
  deriving DecidableEq, Repr

namespace RemotePath

def unreachable (path : RemotePath) (reason : String) : Failure := .unreachable path.garden reason

/-- The headers of an operation for which no reply is asked. -/
def publishHeaders (path : RemotePath) : Headers :=
  Headers.reply (.ofModelClass ModelClass.operation) [] (.ofGarden path.sender)

def requestHeaders (path : RemotePath) (id : String) : Headers :=
  let announced := insertMember Headers.correlationId id
    (insertMember Headers.replyTo path.replyDestination (Headers.ofModelClass ModelClass.operation))
  Headers.reply announced [] (.ofGarden path.sender)

/-- What a reply says. One that does not tell its class is taken as an error. -/
def readReply (message : Message) : Except Failure Response := do
  match ← Outcome.decode (message.modelClass?.getD ModelClass.error) message.body with
  | .success response => .ok response
  | .failure error => .error (.remote error)

def conclude (path : RemotePath) : WaitEnd → Except Failure Response
  | .answered message => readReply message
  | .expired limit => .error (path.unreachable ("no reply within " ++ limit.display))
  | .lost => .error (path.unreachable "connection lost before the reply arrived")
  | .stopping => .error .shuttingDown

/-- Sends a request and leaves its id with those that wait. A send that fails leaves nobody. -/
def request (path : RemotePath) (connection : Connection) (id : String) (operation : Operation) :
    Except Failure Connection :=
  if connection.isConnected then
    let waiting := { connection with pending := connection.pending.register id }
    (waiting.send path.destination ⟨path.requestHeaders id, operation.encode⟩).mapError
      fun failure => path.unreachable failure.message
  else .error (path.unreachable "broker connection is down")

def settle (path : RemotePath) (connection : Connection) (id : String) (ending : WaitEnd) :
    Except Failure Response × Connection :=
  let pending := match ending with
    | .answered _ => connection.pending
    | _ => connection.pending.cancel id
  (path.conclude ending, { connection with pending })

def publish (path : RemotePath) (connection : Connection) (operation : Operation) :
    Except Failure Connection :=
  (connection.send path.destination ⟨path.publishHeaders, operation.encode⟩).mapError
    fun failure => path.unreachable failure.message

/-- The link that the path makes over a connection as it is now, when the waits of the requests sent
on it end as `ending` says. -/
def link (path : RemotePath) (connection : Connection)
    (ending : History → Operation → Option Duration → WaitEnd) : Link where
  connected := connection.isConnected
  request history operation wait := do
    let _ ← path.request connection "" operation
    path.conclude (ending history operation wait)
  publish _ operation := discard (path.publish connection operation)

end RemotePath

end Federation
