import Federation.Connection.RemotePath
import Federation.Listener
import Federation.Proofs.Json.Members

/-!
# Headers of requests and replies

A request says where the reply goes and under which id, and a reply to it is always due.
-/

namespace Federation

section Headers

open Headers

attribute [local simp] extend ofGarden ofModelClass correlationId gardenName modelClass replyTo
  insertMember_nil insertMember_before insertMember_behind

theorem Headers.reply_eq (name garden : String) (request : Headers) :
    reply (ofModelClass name) request (ofGarden garden) =
      ((request.get? correlationId).map (correlationId, ·)).toList ++
        [(gardenName, garden), (modelClass, name)] := by
  rw [reply]
  cases request.get? correlationId with
  | none => simp (disch := decide)
  | some id => simp (disch := decide)

theorem Headers.reply_modelClass (name garden : String) (request : Headers) :
    (reply (ofModelClass name) request (ofGarden garden)).get? modelClass = some name := by
  rw [reply_eq]
  cases request.get? correlationId <;> simp [get?, lookup_cons_eq]

theorem Headers.reply_correlationId (name garden : String) (request : Headers) :
    (reply (ofModelClass name) request (ofGarden garden)).get? correlationId =
      request.get? correlationId := by
  rw [reply_eq]
  cases h : request.get? correlationId <;> simp [get?, lookup_cons_eq]

theorem RemotePath.requestHeaders_eq (path : RemotePath) (id : String) :
    path.requestHeaders id =
      [(correlationId, id), (gardenName, path.sender), (modelClass, ModelClass.operation),
        (replyTo, path.replyDestination)] := by
  simp (disch := decide) [requestHeaders, reply, get?]

end Headers

namespace Headers

theorem resolveDestination_of_ne {request : Headers} (given : request.get? replyTo = some address)
    (named : address ≠ "") (default : Option String) :
    request.resolveDestination default = some address := by
  simp [resolveDestination, given, named]

theorem resolveDestination_of_empty {request : Headers}
    (unnamed : ∀ address, request.get? replyTo = some address → address = "")
    (default : Option String) :
    request.resolveDestination default = default.filter (· ≠ "") := by
  cases given : request.get? replyTo with
  | none => simp [resolveDestination, given]
  | some address => simp [resolveDestination, given, unnamed address given, Option.filter]

end Headers

structure RemotePath.Requests (path : RemotePath) (id : String) (message : Message) : Prop where
  modelClass : message.modelClass? = some ModelClass.operation
  replyTo : message.header? Headers.replyTo = some path.replyDestination
  correlationId : message.header? Headers.correlationId = some id

theorem RemotePath.requests_requestHeaders (path : RemotePath) (id body : String) :
    path.Requests id ⟨path.requestHeaders id, body⟩ := by
  constructor <;> rw [requestHeaders_eq] <;> rfl

theorem RemotePath.Requests.isReply {path : RemotePath} {id : String}
    (h : path.Requests id message) : message.isReply = false := by
  rw [Message.isReply, h.modelClass]
  decide

def Outcome.IsAnswer (outcome : Outcome) : Prop :=
  outcome.modelClass ≠ ModelClass.operation ∧ outcome.modelClass ≠ ModelClass.event

theorem Outcome.isAnswer_failure (error : ErrorMessage) : (failure error).IsAnswer := by
  simp only [IsAnswer, modelClass]
  decide

theorem Outcome.isAnswer_success
    (h : response.modelClass = ModelClass.job ∨ response.modelClass = ModelClass.ack) :
    (success response).IsAnswer := by
  simp only [IsAnswer, modelClass]
  rcases h with h | h <;> rw [h] <;> decide

theorem Outcome.IsAnswer.isReply {outcome : Outcome} {message : Message} (h : outcome.IsAnswer)
    (named : message.modelClass? = some outcome.modelClass) : message.isReply = true := by
  rw [Message.isReply, named]
  simpa [IsAnswer] using h

theorem Listener.reply?_eq {garden : String} {sink : Sink} {request : Headers}
    (hto : request.get? Headers.replyTo = some destination) (named : destination ≠ "")
    (hsink : sink.connected = true) (outcome : Outcome) :
    reply? garden sink request outcome = some (destination, {
      headers := Headers.reply (.ofModelClass outcome.modelClass) request (.ofGarden garden)
      body := outcome.encode }) := by
  have due : isDue request outcome = true := by
    cases outcome with
    | success response => simp [isDue, hto]
    | failure error => rfl
  simp [reply?, due, hsink, Headers.resolveDestination_of_ne hto named]

end Federation
