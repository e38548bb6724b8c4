import Federation.Agent
import Federation.Proofs.Agent.Starts
import Federation.Proofs.Connection.Awaited

/-!
# Where replies to a garden go

A configuration with remote gardens has to say where replies go. The check only asks that something
is said; the garden that replies takes an empty address for none, and sends the reply to its own
default destination instead, or nowhere. So whether a request can be replied to is decided by what
the address says, and, where it is empty, by the other garden.
-/

namespace Federation

namespace RemotePath

variable {path : RemotePath} {connection after : Connection} {id : String} {operation : Operation}

theorem exists_requestFrame (requested : path.request connection id operation = .ok after) :
    ∃ session, after.live? = some session ∧
      session.frames.getLast? = some (path.requestFrame id operation) := by
  obtain ⟨session, live, rfl⟩ := request_cases requested
  obtain ⟨shown, -, ended⟩ := Connection.live?_eq_some.mp live
  exact ⟨_, Connection.live?_eq_some.mpr ⟨shown, rfl, ended⟩, List.getLast?_concat⟩

end RemotePath

namespace GardenConfig

variable {config : GardenConfig} {remote : RemoteGardenSettings}
variable {connection after : Connection} {id : String} {operation : Operation}

theorem exists_replyDestination (valid : config.validate = .ok ())
    (listed : remote ∈ config.remoteGardens) :
    ∃ destination, config.broker.replyDestination = some destination := by
  have remotes : config.remoteGardens.isEmpty = false := by
    cases h : config.remoteGardens with
    | nil => exact absurd listed (h ▸ List.not_mem_nil)
    | cons => rfl
  unfold validate at valid
  cases given : config.broker.replyDestination with
  | some destination => exact ⟨destination, rfl⟩
  | none =>
    cases hblank : Text.isBlankText config.garden.name
    case true =>
      simp only [hblank, if_true] at valid
      cases valid
    case false =>
      simp only [hblank, Bool.false_eq_true, if_false] at valid
      obtain ⟨_, -, valid⟩ := bind_ok valid
      obtain ⟨_, -, valid⟩ := bind_ok valid
      obtain ⟨_, -, valid⟩ := bind_ok valid
      obtain ⟨_, -, valid⟩ := bind_ok valid
      simp [remotes, given] at valid

/-- Among the destinations that the garden is subscribed to is the one for replies. -/
theorem resolves_iff {request : Headers} (address : config.broker.replyDestination = some reply)
    (given : request.get? Headers.replyTo = some reply) (default : Option String) :
    (∃ destination, request.resolveDestination default = some destination ∧
        destination ∈ config.transport.subscriptions) ↔
      reply ≠ "" ∨ ∃ destination, destination ≠ "" ∧ default = some destination ∧
        config.broker.subscribeDestination = some destination := by
  by_cases named : reply = ""
  · subst named
    have unnamed : ∀ address, request.get? Headers.replyTo = some address → address = "" :=
      fun address same => Option.some.inj (same.symm.trans given)
    simp only [Headers.resolveDestination_of_empty unnamed, Option.filter_eq_some_iff,
      mem_subscriptions, address, ne_eq, not_true_eq_false, false_or]
    constructor
    · rintro ⟨destination, ⟨same, named⟩, listed | empty⟩
      · exact ⟨destination, by simpa using named, same, listed⟩
      · cases empty
        simp at named
    · rintro ⟨destination, named, same, listed⟩
      exact ⟨destination, ⟨same, by simpa using named⟩, .inl listed⟩
  · have resolved := Headers.resolveDestination_of_ne given named default
    exact iff_of_true ⟨reply, resolved, mem_subscriptions.mpr (.inr address)⟩ (.inl named)

/-- A request to a configured remote garden goes out and arrives there. The reply then goes to a
destination to which the garden is subscribed exactly if the configured address is not empty, or the
default of the other garden happens to be the destination that this one is subscribed to. -/
theorem request_returns (valid : config.validate = .ok ()) (listed : remote ∈ config.remoteGardens)
    (requested : (config.remotePath remote).request connection id operation = .ok after) :
    ∃ session message, after.live? = some session ∧
      session.frames.getLast? = some ((config.remotePath remote).requestFrame id operation) ∧
      ((config.remotePath remote).requestFrame id operation).relayed? = some message ∧
      ∀ default,
        (∃ destination, message.headers.resolveDestination default = some destination ∧
            destination ∈ config.transport.subscriptions) ↔
          config.broker.replyDestination ≠ some "" ∨
            ∃ destination, destination ≠ "" ∧ default = some destination ∧
              config.broker.subscribeDestination = some destination := by
  obtain ⟨reply, address⟩ := exists_replyDestination valid listed
  obtain ⟨session, live, last⟩ := RemotePath.exists_requestFrame requested
  obtain ⟨message, relayed, asks, -⟩ := (config.remotePath remote).exists_requested id operation
  refine ⟨session, message, live, last, relayed, fun default => ?_⟩
  have same : (config.remotePath remote).replyDestination = reply := by simp [remotePath, address]
  simpa [address] using resolves_iff address (asks.replyTo.trans (congrArg some same)) default

def unaddressed : GardenConfig where
  garden := { name := "hall" }
  broker := {
    endpoints := ["ws://hub"], subscribeDestination := "hall.operations", replyDestination := "" }
  remoteGardens := [{ name := "child" }]

def answering : Network where
  reach _ _ := .ok { messages := [.text "CONNECTED\n\n\x00"] }

/-- A configuration with an empty address for replies is accepted and its requests go out, but only
one default of the other garden leads back. -/
theorem request_returns_unaddressed :
    let path := unaddressed.remotePath { name := "child" }
    let connection := ((Connection.ofSettings "hall" unaddressed.transport).connect answering).2
    ∃ after message, path.request connection "1" (.ofKind .jobReadAll) = .ok after ∧
      (path.requestFrame "1" (.ofKind .jobReadAll)).relayed? = some message ∧
      ∀ default,
        (∃ destination, message.headers.resolveDestination default = some destination ∧
            destination ∈ unaddressed.transport.subscriptions) ↔
          default = some "hall.operations" := by
  intro path connection
  have valid : unaddressed.validate = .ok () := by decide +kernel
  have listed : { name := "child" } ∈ unaddressed.remoteGardens := List.mem_singleton_self _
  have out : (path.request connection "1" (.ofKind .jobReadAll)).isOk = true := by decide +kernel
  cases requested : path.request connection "1" (.ofKind .jobReadAll) with
  | error failure => simp [requested, Except.isOk, Except.toBool] at out
  | ok after =>
    obtain ⟨_, message, -, -, relayed, returns⟩ := request_returns valid listed requested
    refine ⟨after, message, rfl, relayed, fun default => (returns default).trans ?_⟩
    constructor
    · rintro (named | ⟨_, -, same, listens⟩)
      · exact absurd rfl named
      · exact same.trans listens.symm
    · rintro rfl
      exact .inr ⟨"hall.operations", by decide, rfl, rfl⟩

end GardenConfig

end Federation
