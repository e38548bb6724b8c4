import Federation.Backoff
import Federation.Config.Settings

/-!
# What follows from a configuration

The garden's own record, the remote gardens and where they are reached, and the settings of the
broker connection and of the store.
-/

namespace Federation

structure TlsMaterial where
  caCert : Option String := none
  clientCert : Option String := none
  clientKey : Option String := none
  verifyHost : Bool := true
  deriving DecidableEq, Repr

/-- Settings of the broker connection. The endpoints are tried in order; every session subscribes to
the subscriptions. -/
structure TransportSettings where
  endpoints : List String := []
  username : Option String := none
  password : Option String := none
  virtualHost : Option String := none
  subscriptions : List String := []
  sendDestination : Option String := none
  connectTimeout : Duration := .ofSeconds 10
  heartbeat : Nat × Nat := (10000, 0)
  tls : Option TlsMaterial := none
  backoff : BackoffPolicy := {}
  deriving DecidableEq, Repr

structure StoreSettings where
  path : Option String
  maxConnections : Nat := 5
  minConnections : Nat := 1
  connectTimeout : Duration := .ofSeconds 30
  idleTimeout : Option Duration := some (.ofSeconds 600)
  runMigrations : Bool := true
  deriving DecidableEq, Repr

namespace RemoteGardenSettings

def toGarden (remote : RemoteGardenSettings) : Garden :=
  ⟨remote.name, some remote.connectionType, sortTexts remote.namespaces⟩

/-- Where the remote garden takes operations: the configured destination, else the queue named for
the garden. -/
def operationsQueue (remote : RemoteGardenSettings) : String :=
  remote.destination.getD (remote.name ++ ".operations")

end RemoteGardenSettings

namespace GardenConfig

def localGarden (config : GardenConfig) : Garden :=
  ⟨config.garden.name, some .own, sortTexts config.garden.namespaces⟩

def shutdownGrace (config : GardenConfig) : Duration :=
  .ofSeconds config.garden.shutdownGraceSeconds

def backoffPolicy (config : GardenConfig) : BackoffPolicy :=
  ⟨.ofMillis config.backoff.initialMillis, .ofMillis config.backoff.maxMillis,
   config.backoff.multiplier⟩

def bindAddress (config : GardenConfig) : String :=
  config.http.bindAddress ++ ":" ++ toString config.http.port

def tlsMaterial (config : GardenConfig) : Option TlsMaterial :=
  let tls := config.broker.tls
  if tls.useSsl then some ⟨tls.caCert, tls.clientCert, tls.clientKey, tls.verifyHost⟩ else none

def transport (config : GardenConfig) : TransportSettings :=
  let broker := config.broker
  { endpoints := broker.endpoints
    username := broker.username
    password := broker.password
    virtualHost := broker.virtualHost
    subscriptions := broker.subscribeDestination.toList ++ broker.replyDestination.toList
    sendDestination := broker.sendDestination
    connectTimeout := .ofSeconds broker.connectTimeoutSeconds
    heartbeat := (broker.heartbeatSendMillis, broker.heartbeatReceiveMillis)
    tls := config.tlsMaterial
    backoff := config.backoffPolicy }

def store (config : GardenConfig) : StoreSettings :=
  { path := config.database.path, maxConnections := config.database.maxConnections.getD 5 }

end GardenConfig

end Federation
