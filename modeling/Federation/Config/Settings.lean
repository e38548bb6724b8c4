import Federation.Garden

/-!
# Settings

What a garden is configured with, by section, with the values that stand where nothing is given.
Names of records and fields are those of the configuration file.
-/

namespace Federation

structure GardenSettings where
  name : String := "default"
  namespaces : List String := []
  shutdownGraceSeconds : Nat := 10
  deriving DecidableEq, Repr

structure TlsSettings where
  useSsl : Bool := false
  caCert : Option String := none
  clientCert : Option String := none
  clientKey : Option String := none
  verifyHost : Bool := true
  deriving DecidableEq, Repr

structure BrokerSettings where
  endpoints : List String := []
  username : Option String := none
  password : Option String := none
  virtualHost : Option String := none
  subscribeDestination : Option String := none
  sendDestination : Option String := none
  replyDestination : Option String := none
  connectTimeoutSeconds : Nat := 10
  heartbeatSendMillis : Nat := 10000
  heartbeatReceiveMillis : Nat := 0
  tls : TlsSettings := {}
  deriving DecidableEq, Repr

structure BackoffSettings where
  initialMillis : Nat := 500
  maxMillis : Nat := 30000
  multiplier : Double := ⟨0x4000000000000000⟩
  deriving DecidableEq, Repr

structure DatabaseSettings where
  path : Option String := none
  maxConnections : Option Nat := none
  deriving DecidableEq, Repr

structure HttpSettings where
  enabled : Bool := true
  bindAddress : String := "0.0.0.0"
  port : Nat := 2337
  deriving DecidableEq, Repr

structure LogSettings where
  level : String := "info"
  deriving DecidableEq, Repr

structure RemoteGardenSettings where
  name : String
  connectionType : ConnectionType := .stomp
  namespaces : List String := []
  destination : Option String := none
  deriving DecidableEq, Repr

structure GardenConfig where
  garden : GardenSettings := {}
  broker : BrokerSettings := {}
  backoff : BackoffSettings := {}
  database : DatabaseSettings := {}
  http : HttpSettings := {}
  log : LogSettings := {}
  remoteGardens : List RemoteGardenSettings := []
  deriving DecidableEq, Repr

namespace Decoder

def path : Decoder String := fun _ document =>
  match document with
  | .string s => .ok s
  | d => mismatch "path string" d

def word16 : Decoder Nat := natBelow UInt16.size "u16"
def word32 : Decoder Nat := natBelow UInt32.size "u32"
def word64 : Decoder Nat := natBelow UInt64.size "u64"

end Decoder

namespace GardenSettings

def decoder : Decoder GardenSettings :=
  (Form.pure GardenSettings.mk
    |>.both (.optional "name" .string "default")
    |>.both (.optional "namespaces" (.list .string) [])
    |>.both (.optional "shutdown_grace_secs" .word64 10)).decode "GardenSettings"

def toDocument (s : GardenSettings) : Document :=
  .object [
    ("name", .string s.name),
    ("namespaces", .ofTexts s.namespaces),
    ("shutdown_grace_secs", .number (.int s.shutdownGraceSeconds))]

end GardenSettings

namespace TlsSettings

def decoder : Decoder TlsSettings :=
  (Form.pure TlsSettings.mk
    |>.both (.optional "use_ssl" .bool false)
    |>.both (.optional "ca_cert" (.nullable .path) none)
    |>.both (.optional "client_cert" (.nullable .path) none)
    |>.both (.optional "client_key" (.nullable .path) none)
    |>.both (.optional "verify_host" .bool true)).decode "TlsSettings"

def toDocument (s : TlsSettings) : Document :=
  .object [
    ("use_ssl", .bool s.useSsl),
    ("ca_cert", .ofText? s.caCert),
    ("client_cert", .ofText? s.clientCert),
    ("client_key", .ofText? s.clientKey),
    ("verify_host", .bool s.verifyHost)]

end TlsSettings

namespace BrokerSettings

def decoder : Decoder BrokerSettings :=
  (Form.pure BrokerSettings.mk
    |>.both (.optional "endpoints" (.list .string) [])
    |>.both (.optional "username" (.nullable .string) none)
    |>.both (.optional "password" (.nullable .string) none)
    |>.both (.optional "virtual_host" (.nullable .string) none)
    |>.both (.optional "subscribe_destination" (.nullable .string) none)
    |>.both (.optional "send_destination" (.nullable .string) none)
    |>.both (.optional "reply_destination" (.nullable .string) none)
    |>.both (.optional "connect_timeout_secs" .word64 10)
    |>.both (.optional "heartbeat_send_ms" .word32 10000)
    |>.both (.optional "heartbeat_receive_ms" .word32 0)
    |>.both (.optional "tls" TlsSettings.decoder {})).decode "BrokerSettings"

def toDocument (s : BrokerSettings) : Document :=
  .object [
    ("endpoints", .ofTexts s.endpoints),
    ("username", .ofText? s.username),
    ("password", .ofText? s.password),
    ("virtual_host", .ofText? s.virtualHost),
    ("subscribe_destination", .ofText? s.subscribeDestination),
    ("send_destination", .ofText? s.sendDestination),
    ("reply_destination", .ofText? s.replyDestination),
    ("connect_timeout_secs", .number (.int s.connectTimeoutSeconds)),
    ("heartbeat_send_ms", .number (.int s.heartbeatSendMillis)),
    ("heartbeat_receive_ms", .number (.int s.heartbeatReceiveMillis)),
    ("tls", s.tls.toDocument)]

end BrokerSettings

namespace BackoffSettings

def decoder : Decoder BackoffSettings :=
  (Form.pure BackoffSettings.mk
    |>.both (.optional "initial_ms" .word64 500)
    |>.both (.optional "max_ms" .word64 30000)
    |>.both (.optional "multiplier" .double ⟨0x4000000000000000⟩)).decode "BackoffSettings"

def toDocument (s : BackoffSettings) : Document :=
  .object [
    ("initial_ms", .number (.int s.initialMillis)),
    ("max_ms", .number (.int s.maxMillis)),
    ("multiplier", .number (.real s.multiplier))]

end BackoffSettings

namespace DatabaseSettings

def decoder : Decoder DatabaseSettings :=
  (Form.pure DatabaseSettings.mk
    |>.both (.optional "path" (.nullable .path) none)
    |>.both (.optional "max_connections" (.nullable .word32) none)).decode "DatabaseSettings"

def toDocument (s : DatabaseSettings) : Document :=
  .object [
    ("path", .ofText? s.path),
    ("max_connections", s.maxConnections.elim .null fun n => .number (.int n))]

end DatabaseSettings

namespace HttpSettings

def decoder : Decoder HttpSettings :=
  (Form.pure HttpSettings.mk
    |>.both (.optional "enabled" .bool true)
    |>.both (.optional "bind_addr" .string "0.0.0.0")
    |>.both (.optional "port" .word16 2337)).decode "HttpSettings"

def toDocument (s : HttpSettings) : Document :=
  .object [
    ("enabled", .bool s.enabled),
    ("bind_addr", .string s.bindAddress),
    ("port", .number (.int s.port))]

end HttpSettings

namespace LogSettings

def decoder : Decoder LogSettings :=
  (Form.pure LogSettings.mk |>.both (.optional "level" .string "info")).decode "LogSettings"

def toDocument (s : LogSettings) : Document := .object [("level", .string s.level)]

end LogSettings

namespace RemoteGardenSettings

def decoder : Decoder RemoteGardenSettings :=
  (Form.pure RemoteGardenSettings.mk
    |>.both (.required "name" .string)
    |>.both (.optional "connection_type" ConnectionType.decoder .stomp)
    |>.both (.optional "namespaces" (.list .string) [])
    |>.both (.optional "destination" (.nullable .string) none)).decode "RemoteGardenSettings"

def toDocument (s : RemoteGardenSettings) : Document :=
  .object [
    ("name", .string s.name),
    ("connection_type", s.connectionType.toDocument),
    ("namespaces", .ofTexts s.namespaces),
    ("destination", .ofText? s.destination)]

end RemoteGardenSettings

namespace GardenConfig

def decoder : Decoder GardenConfig :=
  (Form.pure GardenConfig.mk
    |>.both (.optional "garden" GardenSettings.decoder {})
    |>.both (.optional "broker" BrokerSettings.decoder {})
    |>.both (.optional "backoff" BackoffSettings.decoder {})
    |>.both (.optional "database" DatabaseSettings.decoder {})
    |>.both (.optional "http" HttpSettings.decoder {})
    |>.both (.optional "log" LogSettings.decoder {})
    |>.both (.optional "remote_gardens" (.list RemoteGardenSettings.decoder) [])).decode
      "GardenConfig"

def toDocument (c : GardenConfig) : Document :=
  .object [
    ("garden", c.garden.toDocument),
    ("broker", c.broker.toDocument),
    ("backoff", c.backoff.toDocument),
    ("database", c.database.toDocument),
    ("http", c.http.toDocument),
    ("log", c.log.toDocument),
    ("remote_gardens", .array (c.remoteGardens.map RemoteGardenSettings.toDocument))]

instance : Coded GardenConfig := ⟨decoder, toDocument⟩

end GardenConfig

end Federation
