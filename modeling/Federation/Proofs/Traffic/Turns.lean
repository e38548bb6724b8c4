import Federation.Proofs.Routing
import Federation.Proofs.Wire.Headers
import Federation.Proofs.Wire.Operations
import Federation.Traffic.Listeners

/-!
# What a listener does in its turn

A listener that takes a message either sends it on and waits, or deals with it in that turn. What it
sends are replies, and operations for the other garden which that garden does not send on.
-/

namespace Federation

-- ---------------------------------------------------------------------------
-- Messages
-- ---------------------------------------------------------------------------

/-- The message holds an operation to which the garden is to answer. -/
def Message.asks (message : Message) (garden : String) : Bool :=
  message.modelClass? != some ModelClass.event &&
    match Operation.decode message.body with
    | .ok operation =>
      operation.kind?.any OperationKind.expectsReply && operation.target? == some garden
    | .error _ => false

/-- Among these is an answer to the message, if that says where to and under which id. -/
def Message.AnsweredBy (message : Message) (sent : List (String × Message)) : Prop :=
  ∀ destination id, message.header? Headers.replyTo = some destination → destination ≠ "" →
    message.header? Headers.correlationId = some id →
      ∃ answer, (destination, answer) ∈ sent ∧ answer.isReply = true ∧
        answer.header? Headers.correlationId = some id

theorem Message.asks_iff {message : Message} :
    message.asks garden = true ↔ message.modelClass? ≠ some ModelClass.event ∧
      ∃ operation, Operation.decode message.body = .ok operation ∧
        operation.kind?.any OperationKind.expectsReply = true ∧
          operation.target? = some garden := by
  cases h : Operation.decode message.body <;> simp [asks, h]

theorem Message.not_asks_encode {operation : Operation} (headers : Headers)
    (h : operation.target? = some target) (other : target ≠ garden) :
    (Message.mk headers operation.encode).asks garden = false := by
  refine Bool.eq_false_iff.mpr fun asks => ?_
  obtain ⟨-, read, decoded, -, named⟩ := asks_iff.mp asks
  have given : operation.targetGardenName = some target := (Option.filter_eq_some_iff.mp h).1
  have kept := (Operation.decode_encode_target decoded given).2
  have garden : read.targetGardenName = some garden := (Option.filter_eq_some_iff.mp named).1
  exact other (Option.some.inj (kept.symm.trans garden))

-- ---------------------------------------------------------------------------
-- Stations
-- ---------------------------------------------------------------------------

namespace Station

/-- The one way of this station leads to the queue of the other one, and replies come back. -/
structure Faces (station other : Station) (path : RemotePath) : Prop where
  paths : station.paths = [path]
  garden : path.garden = other.node.name
  linked : ∃ entry link, station.node.registry.get? other.node.name = some entry ∧
    Registry.liveLink? entry = some link
  queue : path.destination ∈ other.subscriptions
  apart : path.destination ∉ station.subscriptions
  replies : path.replyDestination ∈ station.subscriptions
  address : path.replyDestination ≠ ""
  sink : station.node.sink.connected = true
  distinct : other.node.name ≠ station.node.name

structure Stays (before after : Station) : Prop where
  subscriptions : after.subscriptions = before.subscriptions
  paths : after.paths = before.paths
  name : after.node.name = before.node.name
  registry : after.node.registry = before.node.registry
  sink : after.node.sink = before.node.sink

variable {station other : Station} {path : RemotePath}

theorem Stays.trans {a b c : Station} (first : a.Stays b) (second : b.Stays c) : a.Stays c where
  subscriptions := second.subscriptions.trans first.subscriptions
  paths := second.paths.trans first.paths
  name := second.name.trans first.name
  registry := second.registry.trans first.registry
  sink := second.sink.trans first.sink

theorem stays_queue (station : Station) (queue : List Message) :
    station.Stays { station with queue } := ⟨rfl, rfl, rfl, rfl, rfl⟩

theorem Faces.left (h : station.Faces other path) (stays : station.Stays after) :
    after.Faces other path := by
  constructor
  · rw [stays.paths, h.paths]
  · exact h.garden
  · rw [stays.registry]
    exact h.linked
  · exact h.queue
  · rw [stays.subscriptions]
    exact h.apart
  · rw [stays.subscriptions]
    exact h.replies
  · exact h.address
  · rw [stays.sink, h.sink]
  · rw [stays.name]
    exact h.distinct

theorem Faces.right (h : station.Faces other path) (stays : other.Stays after) :
    station.Faces after path := by
  constructor
  · exact h.paths
  · rw [stays.name, h.garden]
  · rw [stays.name]
    exact h.linked
  · rw [stays.subscriptions]
    exact h.queue
  · exact h.apart
  · exact h.replies
  · exact h.address
  · exact h.sink
  · rw [stays.name]
    exact h.distinct

theorem Faces.path?_eq (h : station.Faces other path) (garden : String) :
    station.path? garden = if garden = other.node.name then some path else none := by
  rw [path?, h.paths, List.find?_singleton, h.garden]
  by_cases same : garden = other.node.name
  · simp [same]
  · simp [same, Ne.symm same]

theorem Faces.published {garden : String} (h : station.Faces other path)
    (named : operation.target? = some garden)
    (hsent : station.published garden operation = some flight) :
    flight.1 = path.destination ∧ flight.2.asks station.node.name = false := by
  rw [Station.published, h.path?_eq] at hsent
  split at hsent
  case isTrue same =>
    cases hsent
    exact ⟨rfl, Message.not_asks_encode _ (same ▸ named) h.distinct⟩
  · cases hsent

/-- The message is dealt with: nobody waits, and what is sent is not sent on. -/
structure Deals (station : Station) (path : RemotePath) (message : Message) (turn : Turn) :
    Prop where
  stays : station.Stays turn.1
  queue : turn.1.queue = station.queue
  serving : turn.1.serving = station.serving
  sent : ∀ flight ∈ turn.2, flight.2.isReply = true ∨
    flight.1 = path.destination ∧ flight.2.asks station.node.name = false
  answered : message.modelClass? ≠ some ModelClass.event → message.AnsweredBy turn.2

theorem mem_reply (hmem : flight ∈ (station.reply message outcome).2) :
    flight.2.modelClass? = some outcome.modelClass ∧
      flight.2.header? Headers.correlationId = message.header? Headers.correlationId := by
  simp only [reply, Listener.reply?, Option.mem_toList] at hmem
  split at hmem
  · obtain ⟨destination, -, rfl⟩ := Option.map_eq_some_iff.mp hmem
    exact ⟨Headers.reply_modelClass _ _ _, Headers.reply_correlationId _ _ _⟩
  · cases hmem

theorem isReply_reply (h : outcome.IsAnswer)
    (hmem : flight ∈ (station.reply message outcome).2) : flight.2.isReply = true :=
  h.isReply (mem_reply hmem).1

theorem Faces.exists_reply (faces : station.Faces other path) (outcome : Outcome)
    (hto : message.header? Headers.replyTo = some destination) (named : destination ≠ "") :
    ∃ answer, (destination, answer) ∈ (station.reply message outcome).2 := by
  rw [reply, Listener.reply?_eq hto named faces.sink]
  exact ⟨_, List.mem_singleton_self _⟩

theorem Faces.deals_reply (faces : station.Faces other path) (message : Message)
    (h : outcome.IsAnswer) : station.Deals path message (station.reply message outcome) where
  stays := ⟨rfl, rfl, rfl, rfl, rfl⟩
  queue := rfl
  serving := rfl
  sent flight hmem := .inl (isReply_reply h hmem)
  answered _ destination id hto named correlation := by
    obtain ⟨answer, hmem⟩ := faces.exists_reply outcome hto named
    exact ⟨answer, hmem, isReply_reply h hmem, (mem_reply hmem).2.trans correlation⟩

theorem act_does {action : Action α} {p : Effect → Prop} (h : action.Does p) :
    station.Stays { station with node := (station.node.act action).2.2 } ∧
      ∀ effect ∈ (station.node.act action).1, p effect := by
  have follows := h station.node
  obtain ⟨more, grown, all⟩ := follows.effects
  refine ⟨⟨rfl, rfl, follows.name, follows.registry, follows.sink⟩, ?_⟩
  intro effect hmem
  change effect ∈ (action.run station.node).2.effects.drop station.node.effects.length at hmem
  rw [grown, List.drop_left] at hmem
  exact all effect hmem

theorem isAnswer_handle (route : Operation → Action Response) (kind : OperationKind)
    (operation : Operation) (node : Node) :
    (Outcome.ofResult (node.act (Action.handle route kind operation)).2.1).IsAnswer := by
  change (Outcome.ofResult ((Action.handle route kind operation).run node).1).IsAnswer
  rcases hrun : (Action.handle route kind operation).run node with ⟨failure | response, after⟩
  · exact Outcome.isAnswer_failure _
  · exact Outcome.isAnswer_success
      (Action.returns_handle route kind operation node response after hrun).1

theorem Faces.deals_handle (faces : station.Faces other path) (message : Message)
    (kind : OperationKind) (operation : Operation) :
    station.Deals path message (station.handle message kind operation) := by
  have handled := Action.does_handle (Action.does_routeWithin Action.maxDepth) kind operation
  obtain ⟨stays, addressed⟩ := @act_does station _ _ _ handled
  have replied := (faces.left stays).deals_reply message
    (isAnswer_handle Action.route kind operation station.node)
  refine ⟨⟨rfl, rfl, stays.name, stays.registry, stays.sink⟩, rfl, rfl, fun flight hmem => ?_,
    fun request destination id hto named correlation => ?_⟩
  · rw [← stays.name]
    rcases List.mem_append.mp hmem with pushed | replies
    · obtain ⟨⟨garden, sent⟩, published, hsent⟩ := List.mem_filterMap.mp pushed
      obtain ⟨effect, done, hpublished⟩ := List.mem_filterMap.mp published
      have named := addressed effect done
      cases effect with
      | publish => cases hpublished; exact .inr ((faces.left stays).published named hsent)
      | _ => cases hpublished
    · exact replied.sent flight replies
  · obtain ⟨answer, hmem, answers⟩ := replied.answered request destination id hto named correlation
    exact ⟨answer, List.mem_append_right _ hmem, answers⟩

theorem Faces.deals_begin (faces : station.Faces other path) (message : Message) (id : String)
    {operation : Operation}
    (h : operation.kind?.any OperationKind.expectsReply = true →
      operation.target? ≠ some other.node.name) :
    station.Deals path message (station.begin message id operation) := by
  rw [begin]
  cases hdecide : station.node.decide operation with
  | error failure => exact faces.deals_reply message (Outcome.isAnswer_failure _)
  | ok way =>
    cases way with
    | handle kind => exact faces.deals_handle message kind operation
    | publish garden link sent =>
      have acknowledged := faces.deals_reply message
        (Outcome.isAnswer_success (.inr rfl) : (Outcome.success .ack).IsAnswer)
      have named := (Node.decide_publish hdecide).1
      refine ⟨acknowledged.stays, rfl, rfl, fun flight hmem => ?_,
        fun request destination id hto named correlation => ?_⟩
      · rcases List.mem_append.mp hmem with published | replies
        · exact .inr (faces.published named (Option.mem_toList.mp published))
        · exact acknowledged.sent flight replies
      · obtain ⟨answer, hmem, answers⟩ :=
          acknowledged.answered request destination id hto named correlation
        exact ⟨answer, List.mem_append_right _ hmem, answers⟩
    | request garden link sent wait =>
      obtain ⟨expects, named⟩ := Node.decide_request hdecide
      have away : garden ≠ other.node.name := fun same => h expects (same ▸ named)
      simp only [forward, faces.path?_eq, away, if_false]
      exact faces.deals_reply message (Outcome.isAnswer_failure _)

theorem Faces.begin_asks (faces : station.Faces other path) (message : Message) (id : String)
    (expects : operation.kind?.any OperationKind.expectsReply = true)
    (named : operation.target? = some other.node.name) :
    station.begin message id operation =
      ({ station with serving := some { message, path, id } },
        [(path.destination, ⟨path.requestHeaders id, operation.withoutWaitTimeout.encode⟩)]) := by
  obtain ⟨kind, hkind, expects⟩ := (Option.any_eq_true ..).mp expects
  obtain ⟨entry, link, hentry, hlink⟩ := faces.linked
  rw [begin, Node.decide_away hkind named faces.distinct hentry hlink]
  simp [expects, forward, faces.path?_eq]

-- ---------------------------------------------------------------------------
-- Turns
-- ---------------------------------------------------------------------------

theorem take_cons (idle : station.serving = none) (hqueue : station.queue = message :: rest)
    (id : String) :
    station.take id =
      if message.modelClass? = some ModelClass.event then
        let act := station.node.act (Listener.onEvent message.body)
        some ({ station with queue := rest, node := act.2.2 }, [])
      else
        match Operation.decode message.body with
        | .error failure =>
          some ({ station with queue := rest }.reply message (.failure failure.toErrorMessage))
        | .ok operation =>
          some ({ station with queue := rest }.begin message id operation.withoutWaitTimeout) := by
  obtain ⟨node, subscriptions, paths, queue, serving⟩ := station
  obtain rfl : serving = none := idle
  obtain rfl : queue = message :: rest := hqueue
  rfl

theorem Faces.take_asks (faces : station.Faces other path) (idle : station.serving = none)
    (hqueue : station.queue = message :: rest) (asks : message.asks other.node.name = true)
    (id : String) :
    ∃ body, station.take id = some
        ({ station with queue := rest, serving := some { message, path, id } },
          [(path.destination, ⟨path.requestHeaders id, body⟩)]) ∧
      (Message.mk (path.requestHeaders id) body).asks station.node.name = false := by
  obtain ⟨request, operation, decoded, expects, named⟩ := Message.asks_iff.mp asks
  have facing : { station with queue := rest }.Faces other path :=
    faces.left (station.stays_queue rest)
  rw [take_cons idle hqueue, if_neg request, decoded]
  exact ⟨_, congrArg some (facing.begin_asks message id expects named),
    Message.not_asks_encode _ named faces.distinct⟩

theorem exists_cons_of_take {id : String} (h : station.take id = some turn) :
    ∃ message rest, station.serving = none ∧ station.queue = message :: rest := by
  unfold take at h
  split at h
  case h_1 message rest idle hqueue => exact ⟨message, rest, idle, hqueue⟩
  · cases h

/-- The listener has moved on: what it has sent is not sent on, and of what it had in its queue it
has sent on only what asks the other station, and has replied to the rest. -/
structure Moves (station other : Station) (path : RemotePath) (turn : Turn) : Prop where
  stays : station.Stays turn.1
  queue : ∀ message ∈ turn.1.queue, message ∈ station.queue
  sent : ∀ flight ∈ turn.2, flight.2.isReply = true ∨
    flight.1 = path.destination ∧ flight.2.asks station.node.name = false
  served : turn.1.serving = none ∨ ∃ message ∈ station.queue, message.asks other.node.name = true ∧
    ∃ id body, turn.1.serving = some { message, path, id } ∧
      (path.destination, ⟨path.requestHeaders id, body⟩) ∈ turn.2
  taken : ∀ message ∈ station.queue, message ∈ turn.1.queue ∨
    message.asks other.node.name = true ∨
      (message.modelClass? ≠ some ModelClass.event → message.AnsweredBy turn.2)

theorem Deals.moves (h : { station with queue := rest }.Deals path message turn)
    (idle : station.serving = none) (hqueue : station.queue = message :: rest) :
    station.Moves other path turn where
  stays := ⟨h.stays.subscriptions, h.stays.paths, h.stays.name, h.stays.registry, h.stays.sink⟩
  queue m hm := by
    rw [h.queue] at hm
    rw [hqueue]
    exact List.mem_cons_of_mem _ hm
  sent := h.sent
  served := .inl (h.serving.trans idle)
  taken m hm := by
    rw [hqueue] at hm
    rcases List.mem_cons.mp hm with rfl | later
    · exact .inr (.inr h.answered)
    · exact .inl (h.queue ▸ later)

theorem Faces.moves_take {id : String} (faces : station.Faces other path)
    (h : station.take id = some turn) : station.Moves other path turn := by
  obtain ⟨message, rest, idle, hqueue⟩ := exists_cons_of_take h
  have facing : { station with queue := rest }.Faces other path :=
    faces.left (station.stays_queue rest)
  by_cases asks : message.asks other.node.name = true
  · obtain ⟨body, taken, away⟩ := faces.take_asks idle hqueue asks id
    cases h.symm.trans taken
    have first : message ∈ station.queue := hqueue ▸ List.mem_cons_self
    refine ⟨⟨rfl, rfl, rfl, rfl, rfl⟩, fun m hm => ?_, fun flight hmem => ?_,
      .inr ⟨message, first, asks, id, body, rfl, List.mem_singleton_self _⟩, fun m hm => ?_⟩
    · exact hqueue ▸ List.mem_cons_of_mem _ hm
    · obtain rfl := List.mem_singleton.mp hmem
      exact .inr ⟨rfl, away⟩
    · rcases List.mem_cons.mp (hqueue ▸ hm) with rfl | later
      · exact .inr (.inl asks)
      · exact .inl later
  · refine Deals.moves ?_ idle hqueue
    rw [take_cons idle hqueue] at h
    by_cases event : message.modelClass? = some ModelClass.event
    · rw [if_pos event] at h
      cases h
      exact {
        stays := (act_does (Action.does_onEvent (p := Effect.Addressed) message.body)).1
        queue := rfl
        serving := rfl
        sent := by simp
        answered := fun request => absurd event request }
    · rw [if_neg event] at h
      cases decoded : Operation.decode message.body with
      | error failure =>
        rw [decoded] at h
        cases h
        exact facing.deals_reply message (Outcome.isAnswer_failure _)
      | ok operation =>
        rw [decoded] at h
        cases h
        refine facing.deals_begin message id fun expects named => asks ?_
        exact Message.asks_iff.mpr ⟨event, operation, decoded, expects, named⟩

theorem modelClass_of_decode (h : Outcome.decode name body = .ok (.success response)) :
    response.modelClass = name := by
  unfold Outcome.decode at h
  split at h
  · simp [Except.map] at h
    split at h <;> cases h
  · split at h
    · cases h
      rfl
    · simp [Except.map] at h
      split at h <;> cases h
      rfl

theorem isAnswer_readReply {answer : Message} (h : answer.isReply = true) :
    (Outcome.ofResult (RemotePath.readReply answer)).IsAnswer := by
  cases named : answer.modelClass? with
  | none => simp [Message.isReply, named] at h
  | some name =>
    rw [RemotePath.readReply, named, Option.getD_some]
    cases decoded : Outcome.decode name answer.body with
    | error failure => exact Outcome.isAnswer_failure _
    | ok outcome =>
      cases outcome with
      | failure error => exact Outcome.isAnswer_failure _
      | success response =>
        have kept : response.modelClass = name := modelClass_of_decode decoded
        change response.modelClass ≠ _ ∧ response.modelClass ≠ _
        rw [kept]
        simpa [Message.isReply, named] using h

theorem moves_resume (h : station.resume = some turn)
    (answered : ∀ serving answer, station.serving = some serving → serving.answer = some answer →
      answer.isReply = true) : station.Moves other path turn := by
  obtain ⟨serving, hserving, h⟩ := Option.bind_eq_some_iff.mp h
  obtain ⟨answer, hanswer, h⟩ := Option.bind_eq_some_iff.mp h
  cases h
  have replied := isAnswer_readReply (answered serving answer hserving hanswer)
  exact ⟨⟨rfl, rfl, rfl, rfl, rfl⟩, fun _ hm => hm,
    fun flight hmem => .inl (isReply_reply replied hmem), .inl rfl, fun _ hm => .inl hm⟩

end Station

end Federation
