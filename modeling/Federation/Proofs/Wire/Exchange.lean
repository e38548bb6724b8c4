import Federation.Proofs.Routing
import Federation.Proofs.Wire.Frames
import Federation.Proofs.Wire.Headers
import Federation.Proofs.Wire.Operations
import Federation.Proofs.Wire.Outcomes
import Federation.Traffic.Exchange

/-!
# A request that is served

What is sent arrives, but for two headers that belong to the frame. So a request that goes out to a
garden runs there once, as it would if it were asked for there, and its outcome comes back.
-/

namespace Federation

-- ---------------------------------------------------------------------------
-- Over the broker
-- ---------------------------------------------------------------------------

namespace Frame

theorem lookup_written_of_ne (frame : Frame) (h : name ≠ contentLength) :
    frame.written.lookup name = frame.headers.lookup name := by
  rw [written, List.lookup_append, declaredLength]
  split
  · simp
  · simp [h]

theorem IsSound.relayed? {frame : Frame} (h : frame.IsSound) :
    frame.relayed? = some (.ofFrame ⟨.message, frame.written, frame.body⟩) := by
  have handed : IsSound ⟨.message, frame.written, frame.body⟩ :=
    ⟨rfl, h.body, fun value hvalue => h.lookup_written hvalue⟩
  have same : written ⟨.message, frame.written, frame.body⟩ = frame.written := by
    rw [written, declaredLength_written, List.append_nil]
  unfold Frame.relayed?
  rw [h.decode_encode]
  simp only
  rw [handed.decode_encode, same]

end Frame

/-- What was sent has arrived, with its body and all its headers but the frame's own. -/
structure Message.Arrived (sent arrived : Message) : Prop where
  body : arrived.body = sent.body
  headers : ∀ name, name ≠ Headers.destination → name ≠ Frame.contentLength →
    arrived.header? name = sent.header? name

theorem Connection.exists_arrived (destination : String) {message : Message}
    (hbody : '\x00' ∉ message.body.toList)
    (hlength : message.header? Frame.contentLength = none) :
    ∃ arrived, (sendFrame destination message).relayed? = some arrived ∧
      message.Arrived arrived := by
  have other : Frame.contentLength ≠ Headers.destination := by decide
  have unstated : (sendFrame destination message).get? Frame.contentLength = none := by
    rw [Frame.get?, sendFrame, lookup_cons_eq, if_neg other]
    exact hlength
  have sound : (sendFrame destination message).IsSound :=
    ⟨rfl, hbody, fun value hvalue => by simp [unstated] at hvalue⟩
  refine ⟨_, sound.relayed?, rfl, fun name hd hc => ?_⟩
  have sorted : (Message.ofFrame ⟨.message, (sendFrame destination message).written,
      message.body⟩).header? name = (sendFrame destination message).written.lookup name := by
    refine (lookup_sortMembers _ name).trans ?_
    rw [List.reverse_reverse]
  refine sorted.trans ?_
  rw [Frame.lookup_written_of_ne _ hc, sendFrame, lookup_cons_eq, if_neg hd]
  rfl

-- ---------------------------------------------------------------------------
-- In the garden that is asked
-- ---------------------------------------------------------------------------

namespace Listener

def answer (garden : String) (request : Message) (outcome : Outcome) : Message where
  headers := Headers.reply (.ofModelClass outcome.modelClass) request.headers (.ofGarden garden)
  body := outcome.encode

theorem run_outcome {route : Operation → Action Response} {node after : Node}
    (hbody : Operation.decode body = .ok operation)
    (hrun : (route operation.withoutWaitTimeout).run node = (result, after)) :
    (outcome route body).run node = (.ok (Outcome.ofResult result), after) := by
  have executed : (execute route body).run node = (result, after) := by
    rw [execute, hbody]
    exact hrun
  rw [outcome, Action.run_settle, Action.run_map, executed]
  cases result <;> rfl

theorem run_onRequest {route : Operation → Action Response} {node after : Node}
    (hbody : Operation.decode message.body = .ok operation)
    (hrun : (route operation.withoutWaitTimeout).run node = (result, after))
    (hto : message.header? Headers.replyTo = some destination) (named : destination ≠ "")
    (hsink : after.sink.connected = true) :
    (onRequest route message).run node = (.ok (), { after with
      effects := after.effects ++
        [.send destination (answer after.name message (Outcome.ofResult result))] }) := by
  rw [onRequest, Action.run_bind, run_outcome hbody hrun]
  simp only [Action.run_bind, Action.run_get, reply?_eq hto named hsink]
  rfl

end Listener

theorem RemotePath.Requests.arrived {path : RemotePath} {id : String}
    (h : path.Requests id sent) (arrived : sent.Arrived message) : path.Requests id message where
  modelClass := (arrived.headers _ (by decide) (by decide)).trans h.modelClass
  replyTo := (arrived.headers _ (by decide) (by decide)).trans h.replyTo
  correlationId := (arrived.headers _ (by decide) (by decide)).trans h.correlationId

theorem RemotePath.exists_requested (path : RemotePath) (id : String) (operation : Operation) :
    ∃ message, (path.requestFrame id operation).relayed? = some message ∧
      path.Requests id message ∧ message.body = operation.encode := by
  have sent := path.requests_requestHeaders id operation.encode
  have whole : '\x00' ∉ (Message.mk (path.requestHeaders id) operation.encode).body.toList :=
    Document.not_mem_text _
  have unstated : (Message.mk (path.requestHeaders id) operation.encode).header?
      Frame.contentLength = none := by
    rw [requestHeaders_eq]
    rfl
  obtain ⟨message, relayed, arrived⟩ :=
    Connection.exists_arrived path.destination whole unstated
  exact ⟨message, relayed, sent.arrived arrived, arrived.body⟩

theorem Node.serve_request {path : RemotePath} {id : String} {node after : Node}
    (requests : path.Requests id message) (address : path.replyDestination ≠ "")
    (hbody : Operation.decode message.body = .ok operation)
    (hrun : (Action.route operation.withoutWaitTimeout).run node = (result, after))
    (hsink : node.sink.connected = true) :
    ∃ answer, answer = Listener.answer after.name message (Outcome.ofResult result) ∧
      node.serve message = ([(path.replyDestination, answer)], { after with
        effects := after.effects ++ [.send path.replyDestination answer] }) := by
  have follows : node.Follows Effect.Addressed after := by
    have does := Action.does_routeWithin Action.maxDepth operation.withoutWaitTimeout node
    have ran : (Action.routeWithin Action.maxDepth operation.withoutWaitTimeout).run node =
      (result, after) := hrun
    rwa [ran] at does
  obtain ⟨more, grown, addressed⟩ := follows.effects
  have silent : more.filterMap Effect.sent? = [] := by
    refine List.filterMap_eq_nil_iff.mpr fun effect hmem => ?_
    have proper := addressed effect hmem
    cases effect with
    | send => exact proper.elim
    | _ => rfl
  refine ⟨_, rfl, ?_⟩
  have ran := Listener.run_onRequest hbody hrun requests.replyTo address (follows.sink ▸ hsink)
  have operation : ¬ message.modelClass? = some ModelClass.event := by
    rw [requests.modelClass]
    decide
  simp only [serve, act, Listener.onMessage, if_neg operation, ran, grown, List.append_assoc,
    List.drop_left, List.filterMap_append, silent, List.nil_append]
  rfl

-- ---------------------------------------------------------------------------
-- There and back
-- ---------------------------------------------------------------------------

theorem Listener.answer_unstated (garden : String) (request : Message) (outcome : Outcome) :
    (answer garden request outcome).header? Frame.contentLength = none := by
  rw [Message.header?, answer, Headers.reply_eq]
  cases request.headers.get? Headers.correlationId <;>
    simp [Headers.get?, lookup_cons_eq, Frame.contentLength, Headers.correlationId,
      Headers.gardenName, Headers.modelClass]

/-- What is left of a result in another garden: of a failure, what that garden tells of it. -/
def Outcome.told (result : Except Failure Response) : Except Failure Response :=
  result.mapError fun failure => .remote failure.toErrorMessage

theorem Outcome.ofResult_told (result : Except Failure Response) :
    ofResult (told result) = ofResult result := by
  cases result <;> rfl

def Outcome.heard (outcome : Outcome) : Except Failure Response := do
  match ← decode outcome.modelClass outcome.encode with
  | .success response => .ok response
  | .failure error => .error (.remote error)

theorem Outcome.heard_ofResult {result : Except Failure Response}
    (portable : (ofResult result).IsPortable) : (ofResult result).heard = told result := by
  rw [heard]
  cases result with
  | error failure =>
    simp only [ofResult, modelClass, decode_failure]
    rfl
  | ok response =>
    simp only [ofResult, modelClass]
    rw [decode_success portable]
    rfl

theorem RemotePath.readReply_heard {outcome : Outcome}
    (named : reply.modelClass? = some outcome.modelClass) (body : reply.body = outcome.encode) :
    readReply reply = outcome.heard := by
  rw [readReply, named, body, Option.getD_some]
  rfl

/-- A request runs in the remote garden, which does nothing more than to send its outcome; and the
reply says that outcome. -/
theorem RemotePath.exchange_eq {path : RemotePath} {remote after : Node} (id : String)
    (portable : operation.IsPortable) (typed : operation.operationType ≠ "")
    (address : path.replyDestination ≠ "") (hsink : remote.sink.connected = true)
    (hrun : (Action.route operation.withoutWaitTimeout).run remote = (result, after))
    (isAnswer : (Outcome.ofResult result).IsAnswer) :
    ∃ reply answer, path.exchange id remote operation = (some reply, { after with
        effects := after.effects ++ [.send path.replyDestination answer] }) ∧
      reply.modelClass? = some (Outcome.ofResult result).modelClass ∧
      reply.body = (Outcome.ofResult result).encode := by
  obtain ⟨message, relayed, requests, body⟩ := path.exists_requested id operation
  have hbody : Operation.decode message.body = .ok operation := by
    rw [body]
    exact portable.decode_encode typed
  obtain ⟨answer, hanswer, served⟩ := Node.serve_request requests address hbody hrun hsink
  have whole' : '\x00' ∉ answer.body.toList := by
    rw [hanswer]
    exact Outcome.not_mem_encode _
  obtain ⟨reply, replied, returned⟩ := Connection.exists_arrived path.replyDestination whole'
    (hanswer ▸ Listener.answer_unstated _ _ _)
  have named : reply.modelClass? = some (Outcome.ofResult result).modelClass := by
    refine (returned.headers _ (by decide) (by decide)).trans ?_
    rw [hanswer]
    exact Headers.reply_modelClass _ _ _
  have correlation : reply.header? Headers.correlationId = some id := by
    refine (returned.headers _ (by decide) (by decide)).trans ?_
    rw [hanswer]
    exact (Headers.reply_correlationId _ _ _).trans requests.correlationId
  refine ⟨reply, answer, ?_, named, returned.body.trans ?_⟩
  · unfold exchange
    rw [relayed]
    simp only [served, replyAmong?, arriving, List.filterMap_cons, List.filterMap_nil, if_true,
      replied, List.find?_cons, Message.isReplyTo, isAnswer.isReply named, correlation,
      beq_self_eq_true, Bool.and_self]
  · rw [hanswer]
    rfl

end Federation
