import Federation.Proofs.Connection.Requests
import Federation.Proofs.Traffic.Turns
import Federation.Proofs.Wire.Exchange
import Federation.Traffic.Reception

/-!
# No reply is answered

Whatever arrives at a garden, and whatever goes on there, a reply never comes to the listener, an
event leads to nothing but a change of the store, and what the listener sends is a reply wherever it
arrives. The last is not obvious for what another garden has answered, since its class comes from a
header that was received: `Sifted` says that only replies are ever handed to a request, so that the
class of an outcome that is passed on is the class of a reply.
-/

namespace Federation

-- ---------------------------------------------------------------------------
-- On the connection
-- ---------------------------------------------------------------------------

namespace Connection

/-- Replies are kept from the listener, and everything else from those who wait. -/
structure Sifted (connection : Connection) : Prop where
  queued : ∀ message ∈ connection.inbound, message.isReply = false
  handed : ∀ id message, connection.pending.slots.lookup id = some (.answered message) →
    message.isReply = true

variable {connection : Connection}

theorem Sifted.narrow (h : connection.Sifted) {after : Connection}
    (inbound : after.inbound = connection.inbound)
    (narrows : connection.pending.Narrows after.pending) : after.Sifted where
  queued := inbound ▸ h.queued
  handed id message hid := h.handed id message (narrows.answered id message hid)

theorem Sifted.deliver (h : connection.Sifted) (message : Message) :
    (connection.deliver message).Sifted := by
  unfold Connection.deliver
  by_cases reply : message.isReply = true
  · rw [if_pos reply]
    cases message.header? Headers.correlationId with
    | none => exact h
    | some id =>
      refine ⟨h.queued, fun other found hid => ?_⟩
      rcases PendingReplies.answered_complete hid with hid | ⟨-, rfl⟩
      · exact h.handed other found hid
      · exact reply
  · rw [if_neg reply]
    refine ⟨List.forall_mem_append.mpr ⟨h.queued, ?_⟩, h.handed⟩
    exact List.forall_mem_singleton.mpr (Bool.eq_false_iff.mpr reply)

theorem Sifted.dispatch (h : connection.Sifted) (frame : Frame) :
    (connection.dispatch frame).Sifted := by
  unfold Connection.dispatch
  split
  · exact h.deliver _
  · exact h

theorem Sifted.lose (h : connection.Sifted) (failure : Failure) :
    (connection.lose failure).Sifted :=
  h.narrow rfl (PendingReplies.narrows_clear _)

theorem Sifted.receive (h : connection.Sifted) (incoming : Incoming) :
    (connection.receive incoming).Sifted := by
  unfold Connection.receive
  split
  · exact h.lose _
  · exact h.lose _
  · split
    · exact h.dispatch _
    · exact h

theorem Sifted.receiveAll (h : connection.Sifted) (incoming : List Incoming) :
    (connection.receiveAll incoming).Sifted := by
  induction incoming generalizing connection with
  | nil => exact h
  | cons first rest ih =>
    unfold Connection.receiveAll
    split
    · exact ih (h.receive first)
    · exact h

theorem Sifted.retire (h : connection.Sifted) : connection.retire.Sifted :=
  h.narrow rfl (PendingReplies.narrows_clear _)

theorem Sifted.retireStale (h : connection.Sifted) : connection.retireStale.Sifted := by
  unfold Connection.retireStale
  split
  · exact h
  · split
    · exact h.retire
    · exact ⟨h.queued, h.handed⟩

theorem Sifted.disconnect (h : connection.Sifted) : connection.disconnect.Sifted :=
  Sifted.retire ⟨h.queued, h.handed⟩

theorem Sifted.openAt (h : connection.Sifted) (network : Network) (endpoint : String) :
    (connection.openAt network endpoint).2.Sifted := by
  unfold Connection.openAt
  dsimp only
  split
  · exact ⟨h.queued, h.handed⟩
  · split
    · exact ⟨h.queued, h.handed⟩
    · split
      · exact ⟨h.queued, h.handed⟩
      · refine Sifted.receiveAll ?_ _
        exact ⟨h.queued, h.handed⟩

theorem Sifted.openFirst (h : connection.Sifted) (network : Network) (last : Failure)
    (endpoints : List String) : (connection.openFirst network last endpoints).2.Sifted := by
  induction endpoints generalizing connection last with
  | nil => exact ⟨h.queued, h.handed⟩
  | cons endpoint rest ih =>
    have opened := h.openAt network endpoint
    unfold Connection.openFirst
    split
    · rename_i same
      rw [same] at opened
      exact opened
    · rename_i same
      rw [same] at opened
      exact ih opened _

theorem Sifted.connect (h : connection.Sifted) (network : Network) :
    (connection.connect network).2.Sifted := by
  unfold Connection.connect
  split
  · exact h
  · dsimp only
    split
    · exact h.retireStale
    · refine Sifted.openFirst ?_ _ _ _
      exact ⟨h.retireStale.queued, h.retireStale.handed⟩

end Connection

-- ---------------------------------------------------------------------------
-- Among the requests
-- ---------------------------------------------------------------------------

theorem RequestStage.message?_leaving (ending : WaitEnd) :
    (leaving ending).message? = (resolved (.waited ending)).message? := by
  cases ending <;> rfl

namespace Requests

structure Sifted (requests : Requests) : Prop where
  connection : requests.connection.Sifted
  stages : ∀ id stage message, requests.stage? id = some stage → stage.message? = some message →
    message.isReply = true

variable {requests after : Requests} {id : String}

theorem Sifted.change (h : requests.Sifted) {connection : Connection} (sifted : connection.Sifted) :
    Sifted { requests with connection } :=
  ⟨sifted, h.stages⟩

theorem Sifted.narrow (h : requests.Sifted) {change : PendingReplies → PendingReplies}
    (narrows : requests.connection.pending.Narrows (change requests.connection.pending)) :
    (requests.changePending change).Sifted :=
  h.change (h.connection.narrow rfl narrows)

theorem Sifted.setStage (h : requests.Sifted) {stage : RequestStage}
    (said : ∀ message, stage.message? = some message → message.isReply = true) :
    (requests.setStage id stage).Sifted := by
  refine ⟨h.connection, fun other found message hfound hmessage => ?_⟩
  rw [stage?_setStage] at hfound
  split at hfound
  · obtain ⟨_, -, rfl⟩ := Option.map_eq_some_iff.mp hfound
    exact said message hmessage
  · exact h.stages other found message hfound hmessage

theorem Sifted.register (h : requests.Sifted) (id : String) : (requests.register id).Sifted := by
  refine ⟨⟨h.connection.queued, fun other message hid => ?_⟩,
    fun other stage message found said => ?_⟩
  · exact h.connection.handed other message (PendingReplies.answered_register hid)
  · rw [stage?_register, Option.or_eq_some_iff] at found
    rcases found with found | ⟨-, found⟩
    · exact h.stages other stage message found said
    · split at found <;> cases found
      cases said

theorem Sifted.send (h : requests.Sifted) (id : String) (succeeds : Bool) :
    (requests.send id succeeds).Sifted := by
  have narrows := (PendingReplies.narrows_cancel requests.connection.pending id).trans
    (PendingReplies.narrows_abandon _ id)
  unfold Requests.send
  split
  · exact h.setStage fun _ said => nomatch said
  · have gone : (requests.changePending fun pending => (pending.cancel id).abandon id).Sifted :=
      h.narrow narrows
    exact gone.setStage fun _ said => nomatch said

theorem Sifted.moves (h : requests.Sifted) (moved : requests.Moves act after) : after.Sifted := by
  cases moved with
  | register => exact h.register _
  | send _ succeeds => exact h.send _ succeeds
  | arrive message => exact h.change (h.connection.deliver message)
  | wake _ found =>
    refine (h.narrow (PendingReplies.narrows_abandon _ _)).setStage fun message said => ?_
    cases said
    exact h.connection.handed _ _ found
  | giveUp _ _ silent =>
    refine (h.narrow (PendingReplies.narrows_abandon _ _)).setStage fun message said => ?_
    rw [silent] at said
    cases said
  | leave leaving =>
    refine (h.narrow (PendingReplies.narrows_cancel _ _)).setStage fun message said => ?_
    exact h.stages _ _ message leaving (RequestStage.message?_leaving _ ▸ said)
  | lose failure => exact h.change (h.connection.lose failure)
  | drop id => exact h.narrow (PendingReplies.narrows_cancel _ id)

theorem Sifted.lineStep (h : requests.Sifted) (taken : requests.lineStep act = some after) :
    after.Sifted := by
  cases act with
  | hear incoming =>
    obtain ⟨-, same⟩ := Option.ite_none_right_eq_some.mp taken
    cases same
    exact h.change (h.connection.receive incoming)
  | request act => exact h.moves (moves_of_step taken)
  | connect network =>
    cases taken
    exact h.change (h.connection.connect network)
  | disconnect =>
    cases taken
    exact h.change h.connection.disconnect

theorem Sifted.lineRun (h : requests.Sifted) (ran : requests.lineRun steps = some after) :
    after.Sifted := by
  induction steps generalizing requests with
  | nil =>
    cases ran
    exact h
  | cons first rest ih =>
    rw [Requests.lineRun, List.foldlM_cons] at ran
    obtain ⟨next, taken, others⟩ := Option.bind_eq_some_iff.mp ran
    exact ih (h.lineStep taken) others

theorem Sifted.endOf (h : requests.Sifted) (ended : requests.endOf id = .answered message) :
    message.isReply = true := by
  unfold Requests.endOf at ended
  split at ended
  case h_1 found =>
    subst ended
    exact h.stages id _ message found rfl
  case h_2 => cases ended

end Requests

-- ---------------------------------------------------------------------------
-- In the garden
-- ---------------------------------------------------------------------------

def Link.Answers (link : Link) : Prop :=
  ∀ history operation wait, (Outcome.ofResult (link.request history operation wait)).IsAnswer

theorem RemotePath.isAnswer_conclude (path : RemotePath) {ending : WaitEnd}
    (answered : ∀ message, ending = .answered message → message.isReply = true) :
    (Outcome.ofResult (path.conclude ending)).IsAnswer := by
  cases ending with
  | answered message => exact Station.isAnswer_readReply (answered message rfl)
  | expired | lost | stopping => exact Outcome.isAnswer_failure _

theorem RemotePath.answers_link (path : RemotePath) (connection : Connection) {ending : WaitEnd}
    (answered : ∀ message, ending = .answered message → message.isReply = true) :
    (path.link connection fun _ _ _ => ending).Answers := by
  intro history operation wait
  simp only [link]
  cases path.request connection "" operation with
  | error failure => exact Outcome.isAnswer_failure _
  | ok _ => exact path.isAnswer_conclude answered

def Node.Answers (node : Node) : Prop :=
  ∀ entry ∈ node.registry, ∀ link, entry.2.link = some link → link.Answers

theorem Reception.answers_linked {reception : Reception} {later : Requests} (h : later.Sifted)
    (id : String) : (reception.linked later id).Answers := by
  intro entry hmem link hlink
  obtain ⟨_, -, rfl⟩ := List.mem_map.mp hmem
  obtain ⟨path, -, rfl⟩ := Option.map_eq_some_iff.mp hlink
  exact path.answers_link _ fun message ended => h.endOf ended

theorem Node.Answers.live {node : Node} {link : Link} (h : node.Answers)
    (linked : (node.registry.get? garden).bind Registry.liveLink? = some link) : link.Answers := by
  obtain ⟨entry, found, live⟩ := Option.bind_eq_some_iff.mp linked
  obtain ⟨_, _, same, -⟩ := List.lookup_eq_some_iff.mp found
  exact h (garden, entry) (by simp [same]) link (Option.filter_eq_some_iff.mp live).1

theorem Node.Answers.route {node : Node} (h : node.Answers) (depth : Nat) (operation : Operation) :
    (Outcome.ofResult ((Action.routeWithin depth operation).run node).1).IsAnswer := by
  cases depth with
  | zero => exact Outcome.isAnswer_failure _
  | succ depth =>
    rw [Action.routeWithin, Action.run_routeBy]
    cases hdecide : node.decide operation with
    | error failure => exact Outcome.isAnswer_failure _
    | ok way =>
      cases way with
      | handle kind => exact Station.isAnswer_handle (Action.routeWithin depth) kind operation node
      | publish garden link sent =>
        simp only [Action.run_bind, Action.publish, Action.run_get, Action.run_emit]
        cases link.publish node.effects sent with
        | ok _ => exact Outcome.isAnswer_success (.inr rfl)
        | error failure => exact Outcome.isAnswer_failure _
      | request garden link sent wait =>
        have answers := h.live (Node.link_of_decide hdecide) node.effects sent wait
        simp only [Action.request, Action.run_bind, Action.run_get, Action.run_emit]
        cases hlink : link.request node.effects sent wait with
        | ok response =>
          rw [hlink] at answers
          exact answers
        | error failure => exact Outcome.isAnswer_failure _

namespace Listener

theorem exists_outcome {node : Node} (h : node.Answers) (body : String) :
    ∃ told after, (outcome Action.route body).run node = (.ok told, after) ∧ told.IsAnswer ∧
      node.Follows Effect.Addressed after := by
  cases hbody : Operation.decode body with
  | error failure =>
    refine ⟨.failure failure.toErrorMessage, node, ?_, Outcome.isAnswer_failure _, .refl node⟩
    rw [outcome, Action.run_settle, Action.run_map, execute, hbody]
    rfl
  | ok operation =>
    have follows := Action.does_routeWithin Action.maxDepth operation.withoutWaitTimeout node
    have answers := h.route Action.maxDepth operation.withoutWaitTimeout
    exact ⟨_, _, run_outcome hbody rfl, answers, follows⟩

theorem events_onEvent (body : String) (node : Node) :
    ((onEvent body).run node).2.events = node.events := by
  unfold onEvent
  split
  · rename_i event _
    rw [Users.handleEvent, Action.run_bind, Action.run_get]
    dsimp only
    split
    · rfl
    · rw [Action.settle_log, Users.absorb, Action.run_change]
      rcases node.store.putShadow _ with e | store <;> rfl
  · rfl

/-- What is sent as an answer is a reply wherever it arrives. -/
theorem arrives_answer (garden destination : String) (request : Message) {told : Outcome}
    (h : told.IsAnswer) :
    ∃ received, (Connection.sendFrame destination (answer garden request told)).relayed? =
      some received ∧ received.isReply = true := by
  have whole : '\x00' ∉ (answer garden request told).body.toList := Outcome.not_mem_encode told
  obtain ⟨received, relayed, arrived⟩ :=
    Connection.exists_arrived destination whole (answer_unstated garden request told)
  have named : received.modelClass? = some told.modelClass :=
    (arrived.headers _ (by decide) (by decide)).trans (Headers.reply_modelClass _ _ _)
  exact ⟨received, relayed, h.isReply named⟩

theorem eq_answer {request : Message}
    (h : reply? garden sink request.headers told = some (destination, message)) :
    message = answer garden request told := by
  unfold reply? at h
  split at h
  · obtain ⟨_, -, same⟩ := Option.map_eq_some_iff.mp h
    cases same
    rfl
  · cases h

theorem onMessage_answers {node : Node} (h : node.Answers) (message : Message) :
    ∃ more, ((onMessage Action.route message).run node).2.effects = node.effects ++ more ∧
      ∀ destination reply, .send destination reply ∈ more →
        ∃ received, (Connection.sendFrame destination reply).relayed? = some received ∧
          received.isReply = true := by
  unfold onMessage
  split
  · have silent := (Action.does_onEvent message.body node).silent
    exact ⟨[], by rw [silent, List.append_nil], fun _ _ hmem => nomatch hmem⟩
  · obtain ⟨told, after, ran, answers, follows⟩ := exists_outcome h message.body
    obtain ⟨more, grown, addressed⟩ := follows.effects
    rw [onRequest, Action.run_bind, ran]
    simp only [Action.run_bind, Action.run_get]
    cases hreply : reply? after.name after.sink message.headers told with
    | none => exact ⟨more, grown, fun _ _ hmem => (addressed _ hmem).elim⟩
    | some sent =>
      refine ⟨more ++ [.send sent.1 sent.2], by simp [grown], fun destination reply hmem => ?_⟩
      rcases List.mem_append.mp hmem with hmem | hmem
      · exact (addressed _ hmem).elim
      · cases List.mem_singleton.mp hmem
        rw [eq_answer hreply]
        exact arrives_answer _ _ message answers

end Listener

-- ---------------------------------------------------------------------------
-- Whatever goes on
-- ---------------------------------------------------------------------------

namespace Reception

variable {reception after : Reception} {act : ReceptionStep} {id : String}

/-- Whatever is done in the garden, its links pass replies on, and only replies come in. -/
theorem exists_linked (h : reception.requests.Sifted)
    (acted : reception.act action meanwhile id = some after) :
    ∃ linked : Node, linked.Answers ∧ linked.effects = reception.node.effects ∧
      linked.events = reception.node.events ∧ after.node = (action.run linked).2 ∧
      after.requests.Sifted := by
  obtain ⟨later, ran, same⟩ := Option.bind_eq_some_iff.mp acted
  cases same
  have sifted := h.lineRun ran
  exact ⟨_, answers_linked sifted id, rfl, rfl, rfl, sifted⟩

theorem next?_eq (h : reception.requests.Sifted) (next : reception.next? = some (message, popped)) :
    ∃ rest, reception.requests.connection.inbound = message :: rest ∧
      popped.node = reception.node ∧ popped.requests.Sifted := by
  unfold next? at next
  split at next
  case h_1 => cases next
  case h_2 rest waits =>
    cases next
    refine ⟨rest, waits, rfl, h.change ⟨fun other hmem => ?_, h.connection.handed⟩⟩
    exact h.connection.queued other (waits ▸ List.mem_cons_of_mem message hmem)

theorem exists_handled (h : reception.requests.Sifted)
    (handled : reception.step (.handle meanwhile id) = some after) :
    ∃ message rest, reception.requests.connection.inbound = message :: rest ∧
      ∃ linked : Node, linked.Answers ∧ linked.effects = reception.node.effects ∧
        linked.events = reception.node.events ∧
        after.node = ((Listener.onMessage Action.route message).run linked).2 ∧
        after.requests.Sifted := by
  obtain ⟨⟨message, popped⟩, next, acted⟩ := Option.bind_eq_some_iff.mp handled
  obtain ⟨rest, waits, same, sifted⟩ := next?_eq h next
  exact ⟨message, rest, waits, same ▸ exists_linked sifted acted⟩

theorem sifted_start (node : Node) (paths : List RemotePath) (settings : TransportSettings) :
    (start node paths settings).requests.Sifted where
  connection := ⟨fun _ hmem => (List.not_mem_nil hmem).elim, fun _ _ hid => nomatch hid⟩
  stages _ _ _ found := nomatch found

theorem sifted_step (h : reception.requests.Sifted) (taken : reception.step act = some after) :
    after.requests.Sifted := by
  cases act with
  | line act =>
    obtain ⟨requests, moved, same⟩ := Option.bind_eq_some_iff.mp taken
    cases same
    exact h.lineStep moved
  | act action meanwhile id =>
    obtain ⟨-, -, -, -, -, sifted⟩ := exists_linked h taken
    exact sifted
  | handle meanwhile id =>
    obtain ⟨-, -, -, -, -, -, -, -, sifted⟩ := exists_handled h taken
    exact sifted

theorem sifted_run (h : reception.requests.Sifted) (ran : reception.run steps = some after) :
    after.requests.Sifted := by
  induction steps generalizing reception with
  | nil =>
    cases ran
    exact h
  | cons first rest ih =>
    rw [run, List.foldlM_cons] at ran
    obtain ⟨next, taken, others⟩ := Option.bind_eq_some_iff.mp ran
    exact ih (sifted_step h taken) others

structure Unanswering (reception : Reception) : Prop where
  /-- No reply waits for the listener. -/
  queue : ∀ message ∈ reception.requests.connection.inbound, message.isReply = false
  /-- A reply that comes in changes nothing but what those find who wait. -/
  reply : ∀ incoming frame after, incoming.content?.map Frame.decode = some (.ok (some frame)) →
    frame.command = .message → (Message.ofFrame frame).isReply = true →
    reception.step (.line (.hear incoming)) = some after →
    ∃ pending, after = { reception with
      requests := { reception.requests with
        connection := { reception.requests.connection with pending } } }
  /-- Any other message that comes in only waits for the listener. -/
  other : ∀ incoming frame after, incoming.content?.map Frame.decode = some (.ok (some frame)) →
    frame.command = .message → (Message.ofFrame frame).isReply = false →
    reception.step (.line (.hear incoming)) = some after →
    after = { reception with
      requests := { reception.requests with
        connection := { reception.requests.connection with
          inbound := reception.requests.connection.inbound ++ [.ofFrame frame] } } }
  /-- An event is handled without doing anything to others, or telling of it here. -/
  event : ∀ meanwhile id message rest after,
    reception.requests.connection.inbound = message :: rest →
    message.modelClass? = some ModelClass.event →
    reception.step (.handle meanwhile id) = some after →
    after.node.effects = reception.node.effects ∧ after.node.events = reception.node.events
  /-- Whatever is handled, what is sent as an answer is a reply wherever it arrives. -/
  answer : ∀ meanwhile id after, reception.step (.handle meanwhile id) = some after →
    ∃ more, after.node.effects = reception.node.effects ++ more ∧
      ∀ destination reply, .send destination reply ∈ more →
        ∃ received, (Connection.sendFrame destination reply).relayed? = some received ∧
          received.isReply = true

theorem hear_eq {incoming : Incoming} {frame : Frame}
    (decoded : incoming.content?.map Frame.decode = some (.ok (some frame)))
    (command : frame.command = .message)
    (heard : reception.step (.line (.hear incoming)) = some after) :
    after = { reception with
      requests := { reception.requests with
        connection := reception.requests.connection.deliver (.ofFrame frame) } } := by
  obtain ⟨requests, received, same⟩ := Option.bind_eq_some_iff.mp heard
  obtain ⟨-, received⟩ := Option.ite_none_right_eq_some.mp received
  cases same
  cases received
  have delivered : reception.requests.connection.receive incoming =
      reception.requests.connection.deliver (.ofFrame frame) := by
    cases incoming with
    | close | broken | control => cases decoded
    | text content | binary content =>
      simp only [Connection.receive, decoded, Connection.dispatch, command, if_true]
  rw [delivered]

theorem unanswering (h : reception.requests.Sifted) : reception.Unanswering where
  queue := h.connection.queued
  reply incoming frame after decoded command reply heard := by
    rw [hear_eq decoded command heard, Connection.deliver, if_pos reply]
    cases (Message.ofFrame frame).header? Headers.correlationId with
    | none => exact ⟨reception.requests.connection.pending, rfl⟩
    | some id => exact ⟨_, rfl⟩
  other incoming frame after decoded command other heard := by
    rw [hear_eq decoded command heard, Connection.deliver, if_neg (Bool.eq_false_iff.mp other)]
  event meanwhile id message rest after waits event handled := by
    obtain ⟨first, others, same, linked, -, effects, events, node, -⟩ := exists_handled h handled
    cases waits.symm.trans same
    rw [node, ← effects, ← events, Listener.onMessage, if_pos event]
    exact ⟨(Action.does_onEvent message.body linked).silent,
      Listener.events_onEvent message.body linked⟩
  answer meanwhile id after handled := by
    obtain ⟨message, -, -, linked, answers, effects, -, node, -⟩ := exists_handled h handled
    rw [node, ← effects]
    exact Listener.onMessage_answers answers message

/-- Whatever has happened in a garden and on its connection before, a reply never comes to the
listener, an event does nothing to others, and what the listener answers is a reply wherever it
arrives. So no reply is ever answered. -/
theorem run_unanswering {node : Node} {paths : List RemotePath} {settings : TransportSettings}
    (ran : (start node paths settings).run steps = some reception) : reception.Unanswering :=
  unanswering (sifted_run (sifted_start node paths settings) ran)

def openNetwork : Network where
  reach _ _ := .ok { messages := [.text "CONNECTED\n\n\x00"] }

def hallway : Node where
  name := "hall"
  registry := [("child", ⟨⟨"child", some .stomp, []⟩, none⟩)]
  supply := ⟨fun _ => "", fun _ plain => plain, default⟩

def toChild : RemotePath := ⟨"child", "child.operations", "hall.replies", "hall"⟩

def passedOn : List ReceptionStep :=
  let request := "\x7b\"operation_type\":\"JOB_READ\",\"target_garden_name\":\"child\"\x7d"
  [.line (.connect openNetwork),
    .line (.hear (.text
      ("MESSAGE\nmodel_class:Operation\nreply-to:client\n\n" ++ request ++ "\x00"))),
    .handle [
      .request (.register "1"), .request (.send "1" true),
      .hear (.text "MESSAGE\nmodel_class:Job\ncorrelation-id:1\n\n[]\x00"),
      .request (.wake "1")] "1",
    .line (.hear (.text "MESSAGE\nmodel_class:Event\n\n\x00"))]

/-- The client gets what the child has answered. -/
theorem run_unanswering_passedOn :
    ∃ reception,
      (start hallway [toChild] { endpoints := ["ws://hub"] }).run passedOn = some reception ∧
      reception.node.effects.filterMap Effect.sent? =
        [("client", ⟨[("garden_name", "hall"), ("model_class", "Job")], "[]"⟩)] ∧
      reception.Unanswering := by
  have told : ((start hallway [toChild] { endpoints := ["ws://hub"] }).run passedOn).map
      (fun reception => reception.node.effects.filterMap Effect.sent?) =
        some [("client", ⟨[("garden_name", "hall"), ("model_class", "Job")], "[]"⟩)] := by
    decide +kernel
  obtain ⟨reception, ran, sent⟩ := Option.map_eq_some_iff.mp told
  exact ⟨reception, ran, sent, run_unanswering ran⟩

end Reception

end Federation
