import Federation.Config.Settings
import Federation.Failure.Basic
import Federation.Url

/-!
# Checking a configuration

A configuration is checked section by section; the first thing that is wrong is reported.
-/

namespace Federation

/-- At most one; not a number is not. -/
def Double.atMostOne (d : Double) : Bool :=
  if d.isNegative then d.isFinite || d.fraction == 0 else d.bits ≤ 0x3FF0000000000000

namespace BrokerSettings

def validateEndpoint (endpoint : String) : Except Failure Unit :=
  match Url.read endpoint with
  | .error e => .error (.invalidUrl e.message)
  | .ok url =>
    if url.scheme = "ws" ∨ url.scheme = "wss" then .ok ()
    else .error (.invalidUrl
      ("Broker endpoint must start with ws:// or wss://, got: " ++ endpoint))

end BrokerSettings

namespace TlsSettings

def validate (tls : TlsSettings) : Except Failure Unit :=
  if tls.clientCert.isSome = tls.clientKey.isSome then .ok ()
  else .error (.invalidConfig
    "broker.tls.client_cert and broker.tls.client_key must be set together")

end TlsSettings

namespace BackoffSettings

def validate (backoff : BackoffSettings) : Except Failure Unit :=
  if backoff.initialMillis = 0 ∨ backoff.maxMillis < backoff.initialMillis then
    .error (.invalidConfig "backoff.initial_ms must be > 0 and <= backoff.max_ms")
  else if backoff.multiplier.atMostOne then
    .error (.invalidConfig "backoff.multiplier must be greater than 1.0")
  else .ok ()

end BackoffSettings

namespace RemoteGardenSettings

/-- Checks one remote garden against the own name and the names of those before it. -/
def validate (own : String) (before : List String) (remote : RemoteGardenSettings) :
    Except Failure Unit :=
  if Text.isBlankText remote.name ∨ remote.name = own then
    .error (.invalidConfig ("invalid remote garden name '" ++ remote.name ++ "'"))
  else if before.contains remote.name then
    .error (.invalidConfig ("remote garden '" ++ remote.name ++ "' configured twice"))
  else if remote.connectionType = .own then
    .error (.invalidConfig ("remote garden '" ++ remote.name ++ "' cannot be LOCAL"))
  else .ok ()

def validateAll (own : String) :
    List String → List RemoteGardenSettings → Except Failure Unit
  | _, [] => .ok ()
  | before, remote :: rest => do
    remote.validate own before
    validateAll own (remote.name :: before) rest

end RemoteGardenSettings

namespace GardenConfig

def validate (config : GardenConfig) : Except Failure Unit := do
  if Text.isBlankText config.garden.name then
    .error (.invalidConfig "garden.name must not be empty")
  config.broker.endpoints.forM BrokerSettings.validateEndpoint
  config.broker.tls.validate
  config.backoff.validate
  RemoteGardenSettings.validateAll config.garden.name [] config.remoteGardens
  if !config.remoteGardens.isEmpty && config.broker.replyDestination.isNone then
    .error (.invalidConfig
      "broker.reply_destination is required when remote_gardens are configured")

end GardenConfig

end Federation
