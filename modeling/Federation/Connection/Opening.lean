import Federation.Connection.Dispatch
import Federation.Supervisor
import Federation.Url

/-!
# Opening a session

The endpoints are tried in their order until one answers: the endpoint is read, the certificates are
read, the network is asked, the greeting goes out, and the broker has to answer it before anything
is subscribed. A subscription that cannot be sent ends the attempt like any other failure. The
failure that counts is the last one.
-/

namespace Federation

/-- What comes back once an endpoint has been reached: messages, and how the wait for more would
end. -/
structure Greeting where
  messages : List Incoming := []
  ending : Failure := .disconnected
  /-- The number of the first subscription that cannot be sent, and why. -/
  unsent : Option (Nat × Failure) := none
  deriving DecidableEq, Repr

/-- The world of a connection. The network may answer each attempt in its own way. -/
structure Network where
  fileFault : String → Option String := fun _ => none
  reach : Nat → String → Except Failure Greeting

namespace Greeting

/-- Waits for the answer to the greeting; what comes after it belongs to the session. -/
def awaitAnswer (ending : Failure) : List Incoming → Except Failure (List Incoming)
  | [] => .error ending
  | .close :: _ => .error .disconnected
  | .broken failure :: _ => .error failure
  | incoming :: rest =>
    match incoming.content?.map Frame.decode with
    | none | some (.ok none) => awaitAnswer ending rest
    | some (.error error) => .error error.toFailure
    | some (.ok (some frame)) =>
      match frame.command with
      | .connected => .ok rest
      | .error => .error (.broker ((frame.get? "message").getD "connection refused"))
      | _ => awaitAnswer ending rest

end Greeting

namespace TlsMaterial

/-- The files that have to be read: a client certificate counts only with its key. -/
def files (material : TlsMaterial) : List String :=
  material.caCert.toList ++
    match material.clientCert, material.clientKey with
    | some certificate, some key => [certificate, key]
    | _, _ => []

end TlsMaterial

namespace Network

def checkFiles (network : Network) (files : List String) : Except Failure Unit :=
  files.forM fun path =>
    match network.fileFault path with
    | none => .ok ()
    | some reason => .error (.tls (path ++ ": " ++ reason))

end Network

namespace TransportSettings

def connectFrame (settings : TransportSettings) (host : String) : Frame :=
  let login := match settings.username with
    | none => []
    | some username => [
        ("login", username), ("passcode", settings.password.getD ""), ("client-id", username)]
  { command := .connect
    headers := [
      ("accept-version", "1.2"), ("host", host),
      ("heart-beat", toString settings.heartbeat.1 ++ "," ++ toString settings.heartbeat.2)]
      ++ login }

def hostFor (settings : TransportSettings) (url : Url) : String :=
  (settings.virtualHost.orElse fun _ => url.host).getD "/"

end TransportSettings

namespace Url

def checkHost (url : Url) : Except Failure Unit :=
  if url.host.isSome then .ok () else .error (.webSocket "URL error: No host name in the URL")

/-- Without a port, only the schemes of web sockets say where to go. -/
def checkPort (url : Url) : Except Failure Unit :=
  if url.port.isSome || url.scheme == "ws" || url.scheme == "wss" then .ok ()
  else .error (.webSocket "URL error: URL scheme not supported")

end Url

namespace Connection

/-- Finds out how an endpoint answers, and the greeting for it. -/
def reach (network : Network) (connection : Connection) (endpoint : String) :
    Except Failure (Frame × Greeting) := do
  let url ← (Url.read endpoint).mapError fun error => .invalidUrl error.message
  url.checkHost
  network.checkFiles ((connection.settings.tls.map TlsMaterial.files).getD [])
  url.checkPort
  let greeting ← network.reach connection.attempts endpoint
  .ok (connection.settings.connectFrame (connection.settings.hostFor url), greeting)

def subscribeFrames (connection : Connection) : List Frame :=
  connection.subscriptions.zipIdx.map fun (destination, number) =>
    subscribeFrame destination number

def openAt (network : Network) (connection : Connection) (endpoint : String) :
    Except Failure Unit × Connection :=
  let tried := { connection with attempts := connection.attempts + 1 }
  match connection.reach network endpoint with
  | .error failure => (.error failure, tried)
  | .ok (greetingFrame, greeting) =>
    match Greeting.awaitAnswer greeting.ending greeting.messages with
    | .error failure =>
      (.error failure, { tried with past := tried.past ++ [⟨[greetingFrame], some failure⟩] })
    | .ok rest =>
      match greeting.unsent.filter fun (number, _) => number < tried.subscriptions.length with
      | some (number, failure) =>
        let frames := greetingFrame :: tried.subscribeFrames.take number
        (.error failure, { tried with past := tried.past ++ [⟨frames, some failure⟩] })
      | none =>
        let session : Session := { frames := greetingFrame :: tried.subscribeFrames }
        (.ok (), receiveAll { tried with session := some session, state := .connected } rest)

def openFirst (network : Network) (connection : Connection) (last : Failure) :
    List String → Except Failure Unit × Connection
  | [] => (.error last, { connection with state := .disconnected })
  | endpoint :: rest =>
    match connection.openAt network endpoint with
    | (.ok (), connection) => (.ok (), connection)
    | (.error failure, connection) => openFirst network connection failure rest

/-- Brings the connection up; nothing happens when it is up already. -/
def connect (network : Network) (connection : Connection) : Except Failure Unit × Connection :=
  if connection.session.isSome && connection.isConnected then (.ok (), connection)
  else
    let connection := connection.retireStale
    if connection.settings.endpoints.isEmpty then
      (.error (.invalidConfig "no broker endpoints configured"), connection)
    else
      openFirst network { connection with state := .connecting } .disconnected
        connection.settings.endpoints

/-- What so many attempts in a row come to, up to the first that succeeds. -/
def attemptResults (network : Network) : Nat → Connection → List Bool
  | 0, _ => []
  | n + 1, connection =>
    match connection.connect network with
    | (.ok (), _) => [true]
    | (.error _, connection) => false :: attemptResults network n connection

/-- Keeps trying to connect until it succeeds or a stop is requested; at most `n` times. -/
def supervise (network : Network) (stop : StopRequest) (n : Nat) (connection : Connection) :
    Supervision :=
  Supervision.run (fun k => (connection.settings.backoff.delay k).sleepMillis) stop
    (connection.attemptResults network n)

def unableToConnect : String := "Unable to connect to the broker, is it started?"

end Connection

end Federation
