import Federation.Proofs.Traffic.Chains

/-!
# Where a reply goes

A message that is no event is answered once or not at all. The answer goes to the address in the
request or else to the default, and of the request it carries nothing but the correlation id; whether
there is one does not depend on whether the operation succeeded, but for an empty success that
nobody has asked for.
-/

namespace Federation

theorem Operation.kind_of_unread {failure : Failure} (h : decode body = .error failure) :
    failure.kind = .parse := by
  unfold decode at h
  cases hread : (Coded.ofText body : Except DecodeError Operation) with
  | error e =>
    rw [hread] at h
    cases h
    rfl
  | ok operation =>
    simp only [hread, mapError_ok, bind, Except.bind] at h
    split at h <;> cases h
    rfl

namespace Listener

/-- What the operation in a body comes to, and the garden afterwards. One that cannot be read is not
routed; any other is routed once, without the bound on the wait. -/
inductive Comes (route : Operation → Action Response) (body : String) (node : Node) :
    Except Failure Response → Node → Prop
  | unread {failure : Failure} (unreadable : Operation.decode body = .error failure)
    (parse : failure.kind = .parse) : Comes route body node (.error failure) node
  | routed (readable : Operation.decode body = .ok operation)
    (ran : (route operation.withoutWaitTimeout).run node = (result, after)) :
    Comes route body node result after

/-- A success with nothing in it, and no address to send it to. -/
def IsUnasked (request : Message) (result : Except Failure Response) : Prop :=
  (∃ response, result = .ok response ∧ response.payload = .null) ∧
    request.header? Headers.replyTo = none

structure Replied (garden : String) (sink : Sink) (request : Message)
    (result : Except Failure Response) (sent : List (String × Message)) : Prop where
  once : sent.length ≤ 1
  due : sent.length = 1 ↔ sink.connected = true ∧
    (∃ destination, request.headers.resolveDestination sink.default = some destination) ∧
    ¬ IsUnasked request result
  address : ∀ s ∈ sent, request.headers.resolveDestination sink.default = some s.1
  asked : ∀ s ∈ sent, ∀ replyTo, request.header? Headers.replyTo = some replyTo → replyTo ≠ "" →
    s.1 = replyTo
  headers : ∀ s ∈ sent, s.2.headers =
    ((request.header? Headers.correlationId).map (Headers.correlationId, ·)).toList ++
      [(Headers.gardenName, garden), (Headers.modelClass, (Outcome.ofResult result).modelClass)]
  body : ∀ s ∈ sent, s.2.body = (Outcome.ofResult result).encode
  /-- A failure is told with its kind and its text, or as another garden has told it. -/
  failure : ∀ s ∈ sent, ∀ failure, result = .error failure → ∃ error : ErrorMessage,
    s.2.body = (Outcome.failure error).encode ∧ error.errorType = failure.kind ∧
      (error.message = failure.message ∨ failure = .remote error)

theorem isDue_iff {request : Message} {result : Except Failure Response} :
    isDue request.headers (Outcome.ofResult result) = true ↔ ¬ IsUnasked request result := by
  cases result with
  | error failure => simp [isDue, Outcome.ofResult, IsUnasked]
  | ok response =>
    have empty : response.isEmpty = true ↔ response.payload = .null := by
      rw [Response.isEmpty]
      cases response.payload <;> simp [Json.isNull]
    simp only [isDue, Outcome.ofResult, IsUnasked, Bool.or_eq_true, Bool.not_eq_true',
      ← Bool.not_eq_true, empty, Message.header?, Option.isSome_iff_ne_none]
    simp
    tauto

theorem replied_nil {sink : Sink} {request : Message} {result : Except Failure Response}
    (undue : ¬ (sink.connected = true ∧
      (∃ destination, request.headers.resolveDestination sink.default = some destination) ∧
      ¬ IsUnasked request result)) (garden : String) : Replied garden sink request result [] where
  once := Nat.zero_le 1
  due := by simpa using undue
  address := by simp
  asked := by simp
  headers := by simp
  body := by simp
  failure := by simp

theorem replied_reply? (garden : String) (sink : Sink) (request : Message)
    (result : Except Failure Response) :
    Replied garden sink request result
      (reply? garden sink request.headers (Outcome.ofResult result)).toList := by
  by_cases sends : isDue request.headers (Outcome.ofResult result) = true ∧ sink.connected = true
  · obtain ⟨due, connected⟩ := sends
    have asked := isDue_iff.mp due
    cases hd : request.headers.resolveDestination sink.default with
    | none =>
      have silent : reply? garden sink request.headers (Outcome.ofResult result) = none := by
        simp [reply?, hd]
      rw [silent]
      exact replied_nil (by simp [hd]) garden
    | some destination =>
      have spoken : reply? garden sink request.headers (Outcome.ofResult result) =
          some (destination, answer garden request (Outcome.ofResult result)) := by
        simp [reply?, due, connected, hd, answer]
      rw [spoken]
      refine ⟨by simp, by simp [connected, hd, asked], ?_, ?_, ?_, ?_, ?_⟩
      all_goals
        rw [Option.toList_some]
        intro s hs
        obtain rfl := List.mem_singleton.mp hs
      · exact hd
      · intro replyTo hto named
        exact Option.some.inj (hd.symm.trans (Headers.resolveDestination_of_ne hto named _))
      · exact Headers.reply_eq ..
      · rfl
      · rintro failure rfl
        exact ⟨_, rfl, failure.errorType_toErrorMessage, failure.message_toErrorMessage⟩
  · have silent : reply? garden sink request.headers (Outcome.ofResult result) = none := by
      simpa [reply?] using fun due connected => absurd ⟨due, connected⟩ sends
    have unsent : ¬ (sink.connected = true ∧
        (∃ destination,
          request.headers.resolveDestination sink.default = some destination) ∧
        ¬ IsUnasked request result) := by
      rintro ⟨connected, -, asked⟩
      exact sends ⟨isDue_iff.mpr asked, connected⟩
    rw [silent]
    exact replied_nil unsent garden

theorem exists_comes (route : Operation → Action Response) (body : String) (node : Node) :
    ∃ result after, Comes route body node result after ∧
      (outcome route body).run node = (.ok (Outcome.ofResult result), after) := by
  cases hbody : Operation.decode body with
  | error failure =>
    refine ⟨_, _, .unread hbody (Operation.kind_of_unread hbody), ?_⟩
    rw [outcome, execute, hbody]
    rfl
  | ok operation =>
    rcases hrun : (route operation.withoutWaitTimeout).run node with ⟨result, after⟩
    exact ⟨result, after, .routed hbody hrun, run_outcome hbody hrun⟩

theorem Comes.follows {route : Operation → Action Response} {p : Effect → Prop}
    (does : ∀ operation, (route operation).Does p) (h : Comes route body node result after) :
    node.Follows p after := by
  cases h with
  | unread => exact .refl node
  | @routed operation _ _ _ ran =>
    have follows := does operation.withoutWaitTimeout node
    rwa [ran] at follows

theorem run_onRequest_sent {route : Operation → Action Response} {node middle : Node}
    (came : (outcome route message.body).run node = (.ok (Outcome.ofResult result), middle)) :
    (onRequest route message).run node = (.ok (), { middle with
      effects := middle.effects ++ (reply? middle.name middle.sink message.headers
        (Outcome.ofResult result)).toList.map fun s => .send s.1 s.2 }) := by
  rw [onRequest, Action.run_bind, came]
  simp only [Action.run_bind, Action.run_get]
  cases reply? middle.name middle.sink message.headers (Outcome.ofResult result) with
  | none => simp
  | some s => rfl

/-- A message that is no event is answered at most once, and exactly then when there is a way, an
address and something to say; `route` is any that sends nothing itself. -/
theorem onMessage_replies {route : Operation → Action Response} {p : Effect → Prop}
    (does : ∀ operation, (route operation).Does p)
    (silent : ∀ destination message, ¬ p (.send destination message)) {message : Message}
    (request : message.modelClass? ≠ some ModelClass.event) (node : Node) :
    ∃ result routed effects, Comes route message.body node result routed ∧
      Replied node.name node.sink message result (effects.filterMap Effect.sent?) ∧
      node.act (onMessage route message) = (effects, .ok (), { routed with
        effects := routed.effects ++
          (effects.filterMap Effect.sent?).map fun s => .send s.1 s.2 }) := by
  obtain ⟨result, routed, comes, came⟩ := exists_comes route message.body node
  have follows := comes.follows does
  obtain ⟨more, grown, unsent⟩ := follows.effects
  have none_sent : more.filterMap Effect.sent? = [] := by
    refine List.filterMap_eq_nil_iff.mpr fun effect hmem => ?_
    cases effect with
    | send destination message => exact absurd (unsent _ hmem) (silent destination message)
    | _ => rfl
  let replies := (reply? routed.name routed.sink message.headers (Outcome.ofResult result)).toList
  let effects : List Effect := more ++ replies.map fun s => .send s.1 s.2
  have replied : Replied node.name node.sink message result replies := by
    rw [← follows.name, ← follows.sink]
    exact replied_reply? ..
  have sent : effects.filterMap Effect.sent? = replies := by
    simp only [effects, List.filterMap_append, none_sent, List.nil_append, List.filterMap_map]
    exact List.filterMap_some
  refine ⟨result, routed, effects, comes, sent ▸ replied, ?_⟩
  rw [Node.act, onMessage, if_neg request, run_onRequest_sent came, sent]
  simp only [grown, List.append_assoc, List.drop_left]
  rfl

def askingForJobs : Message where
  headers := [(Headers.correlationId, "7"), (Headers.replyTo, "near.replies"), ("trace", "on")]
  body := Relay.listing.encode

theorem onMessage_replies_askingForJobs :
    askingForJobs.modelClass? ≠ some ModelClass.event ∧
      ∃ result routed effects reply,
        Comes Action.route askingForJobs.body Relay.far result routed ∧
        (Relay.far.act (onMessage Action.route askingForJobs)).1 = effects ∧
        effects.filterMap Effect.sent? = [("near.replies", reply)] ∧
        reply.headers = [(Headers.correlationId, "7"), (Headers.gardenName, "far"),
          (Headers.modelClass, (Outcome.ofResult result).modelClass)] := by
  have request : askingForJobs.modelClass? ≠ some ModelClass.event := by decide
  have addressed : askingForJobs.header? Headers.replyTo = some "near.replies" := by decide
  have found : askingForJobs.headers.resolveDestination Relay.far.sink.default =
    some "near.replies" := by decide
  obtain ⟨result, routed, effects, comes, replied, ran⟩ :=
    onMessage_replies (Action.does_routeWithin Action.maxDepth) (fun _ _ => id) request Relay.far
  have one : (effects.filterMap Effect.sent?).length = 1 :=
    replied.due.mpr ⟨rfl, ⟨_, found⟩, fun unasked => by simp [IsUnasked, addressed] at unasked⟩
  obtain ⟨⟨destination, reply⟩, alone⟩ := List.length_eq_one_iff.mp one
  have sent : (destination, reply) ∈ effects.filterMap Effect.sent? := by simp [alone]
  obtain rfl : destination = "near.replies" := replied.asked _ sent _ addressed (by decide)
  exact ⟨request, result, routed, effects, reply, comes, congrArg Prod.fst ran, alone,
    replied.headers _ sent⟩

end Listener

end Federation
