import Federation.Proofs.Users.Traffic
import Federation.Proofs.Wire.Replies

/-!
# An empty address is not always none

A request with an empty address for the reply is answered where one without an address is: at the
default destination, if there is one. But whether there is anything to say is decided by the address
as it stands. So the two differ where the operation succeeds with nothing in the answer: without an
address nobody is told, and with an empty one the default destination is.
-/

namespace Federation

def Message.addressed (message : Message) (address : String) : Message :=
  { message with headers := insertMember Headers.replyTo address message.headers }

namespace Message

theorem header?_addressed (message : Message) (address name : String) :
    (message.addressed address).header? name =
      if name = Headers.replyTo then some address else message.header? name :=
  lookup_insertMember message.headers Headers.replyTo name address

theorem modelClass?_addressed (message : Message) (address : String) :
    (message.addressed address).modelClass? = message.modelClass? := by
  have other : Headers.modelClass ≠ Headers.replyTo := by decide
  rw [modelClass?, header?_addressed, if_neg other, modelClass?]

end Message

namespace Listener

structure IsSurplus (sink : Sink) (result : Except Failure Response) (destination : String) :
    Prop where
  empty : ∃ response, result = .ok response ∧ response.payload = .null
  connected : sink.connected = true
  default : sink.default = some destination
  named : destination ≠ ""

variable {sink : Sink} {message : Message} {result : Except Failure Response} {destination : String}

theorem answer_addressed (garden : String) (message : Message) (address : String)
    (outcome : Outcome) :
    answer garden (message.addressed address) outcome = answer garden message outcome := by
  have other : Headers.correlationId ≠ Headers.replyTo := by decide
  have same : (message.addressed address).headers.get? Headers.correlationId =
      message.headers.get? Headers.correlationId :=
    (message.header?_addressed address Headers.correlationId).trans (if_neg other)
  rw [answer, answer, Headers.reply_eq, Headers.reply_eq, same]

theorem reply?_of_empty (garden : String) (sink : Sink) (outcome : Outcome)
    (unnamed : ∀ address, message.header? Headers.replyTo = some address → address = "") :
    reply? garden sink message.headers outcome =
      if isDue message.headers outcome && sink.connected then
        (sink.default.filter (· ≠ "")).map fun destination =>
          (destination, answer garden message outcome)
      else none := by
  rw [reply?, Headers.resolveDestination_of_empty unnamed]
  rfl

theorem reply?_addressed (garden : String) (sink : Sink) (message : Message) (outcome : Outcome) :
    reply? garden sink (message.addressed "").headers outcome =
      if sink.connected then
        (sink.default.filter (· ≠ "")).map fun destination =>
          (destination, answer garden message outcome)
      else none := by
  have given : (message.addressed "").headers.get? Headers.replyTo = some "" :=
    (message.header?_addressed "" Headers.replyTo).trans (if_pos rfl)
  have due : isDue (message.addressed "").headers outcome = true := by
    cases outcome with
    | success response => simp [isDue, given]
    | failure error => rfl
  rw [reply?_of_empty garden sink outcome fun address same =>
    Option.some.inj (same.symm.trans given), due, Bool.true_and]
  simp only [answer_addressed]

theorem IsSurplus.reply? (h : IsSurplus sink result destination)
    (absent : message.header? Headers.replyTo = none) (garden : String) :
    Listener.reply? garden sink message.headers (Outcome.ofResult result) = none ∧
      Listener.reply? garden sink (message.addressed "").headers (Outcome.ofResult result) =
        some (destination, answer garden message (Outcome.ofResult result)) := by
  have unasked : IsUnasked message result := ⟨h.empty, absent⟩
  have undue : isDue message.headers (Outcome.ofResult result) = false :=
    Bool.eq_false_iff.mpr fun due => isDue_iff.mp due unasked
  constructor
  · simp [Listener.reply?, undue]
  · simp [reply?_addressed, h.connected, h.default, h.named]

/-- Where nothing is in excess, the reply is the same. -/
theorem reply?_addressed_eq (plain : ∀ destination, ¬ IsSurplus sink result destination)
    (absent : message.header? Headers.replyTo = none) (garden : String) :
    reply? garden sink (message.addressed "").headers (Outcome.ofResult result) =
      reply? garden sink message.headers (Outcome.ofResult result) := by
  rw [reply?_addressed, reply?_of_empty garden sink _ fun address same => by simp [absent] at same]
  by_cases due : isDue message.headers (Outcome.ofResult result) = true
  · rw [due, Bool.true_and]
  · have empty := (not_not.mp (mt isDue_iff.mpr due)).1
    rw [Bool.eq_false_iff.mpr due]
    by_cases connected : sink.connected = true
    · have nowhere : sink.default.filter (· ≠ "") = none := by
        refine Option.filter_eq_none_iff.mpr fun destination default named => ?_
        exact plain destination ⟨empty, connected, default, by simpa using named⟩
      rw [nowhere]
      simp
    · simp [connected]

/-- With an empty address the same is sent and the garden is left the same as without one, unless
the operation succeeds with nothing in the answer and a default destination can be reached: it is
then told, and without an address nobody is. -/
theorem onMessage_addressed {route : Operation → Action Response} {p : Effect → Prop}
    (does : ∀ operation, (route operation).Does p) {message : Message}
    (request : message.modelClass? ≠ some ModelClass.event)
    (absent : message.header? Headers.replyTo = none) (node : Node) :
    ∃ result routed, Comes route message.body node result routed ∧
      ((onMessage route (message.addressed "")).run node = (onMessage route message).run node ↔
        ∀ destination, ¬ IsSurplus node.sink result destination) ∧
      ∀ destination, IsSurplus node.sink result destination →
        (onMessage route message).run node = (.ok (), routed) ∧
        (onMessage route (message.addressed "")).run node = (.ok (), routed.did
          (.send destination (answer node.name message (Outcome.ofResult result)))) := by
  obtain ⟨result, routed, comes, came⟩ := exists_comes route message.body node
  have follows := comes.follows does
  have blank : (outcome route (message.addressed "").body).run node =
    (.ok (Outcome.ofResult result), routed) := came
  have other : (message.addressed "").modelClass? ≠ some ModelClass.event := by
    rwa [Message.modelClass?_addressed]
  refine ⟨result, routed, comes, ?_⟩
  rw [← follows.name, ← follows.sink, onMessage, if_neg other, onMessage, if_neg request,
    run_onRequest_sent blank, run_onRequest_sent came]
  refine ⟨⟨fun same destination surplus => ?_, fun plain => ?_⟩, fun destination surplus => ?_⟩
  · obtain ⟨silent, spoken⟩ := surplus.reply? absent routed.name
    simp [silent, spoken] at same
  · rw [reply?_addressed_eq plain absent]
  · obtain ⟨silent, spoken⟩ := surplus.reply? absent routed.name
    rw [silent, spoken]
    exact ⟨by simp, rfl⟩

def hall : Node where
  name := "hall"
  handlers := [.userSync]
  sink := { default := some "hall.events" }
  store := { tables := some {} }
  supply := ⟨fun _ => "hall", fun _ plain => plain, default⟩

/-- Users for the hall, of which there are none, and nobody to be told that they are there. -/
def noUsers : Message where
  headers := [(Headers.correlationId, "7"), (Headers.modelClass, ModelClass.operation)]
  body := (Users.syncOperation [] ⟨"hall", some .stomp, []⟩).encode

theorem onMessage_addressed_hall :
    noUsers.modelClass? ≠ some ModelClass.event ∧ noUsers.header? Headers.replyTo = none ∧
      (onMessage Action.route noUsers).run hall = (.ok (), hall) ∧
      (onMessage Action.route (noUsers.addressed "")).run hall = (.ok (), hall.did
        (.send "hall.events" ⟨[("correlation-id", "7"), ("garden_name", "hall"),
          ("model_class", "Ack")], ""⟩)) := by
  have does : ∀ operation, (Action.route operation).Does Effect.Addressed :=
    Action.does_routeWithin Action.maxDepth
  have request : noUsers.modelClass? ≠ some ModelClass.event := by decide
  have absent : noUsers.header? Headers.replyTo = none := by decide
  have arrives : Operation.decode noUsers.body = .ok _ := Users.decode_encode_syncOperation _ _
  have done : (Action.route (Users.syncOperation [] ⟨"hall", some .stomp, []⟩)).run hall =
    (.ok .ack, hall) := by with_unfolding_all rfl
  obtain ⟨result, routed, comes, -, told⟩ := onMessage_addressed does request absent hall
  cases comes with
  | unread unreadable => cases unreadable.symm.trans arrives
  | routed readable ran =>
    cases readable.symm.trans arrives
    rw [Users.syncOperation_withoutWaitTimeout, done] at ran
    cases ran
    obtain ⟨silent, spoken⟩ := told "hall.events" ⟨⟨_, rfl, rfl⟩, rfl, rfl, by decide⟩
    exact ⟨request, absent, silent, spoken⟩

end Listener

end Federation
