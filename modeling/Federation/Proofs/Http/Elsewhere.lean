import Federation.Proofs.Http.Requests
import Federation.Proofs.Traffic.Chains

/-!
# Jobs of another garden

A request with the parameter `garden` is answered as the garden it names would answer it, but for
one status: that a job is not there is told from afar as a failure of the other garden.
-/

namespace Federation

-- ---------------------------------------------------------------------------
-- Operations that name the garden they run in
-- ---------------------------------------------------------------------------

theorem Jobs.handle_withTarget (kind : OperationKind) (operation : Operation) (garden : String) :
    handle kind (operation.withTarget garden) = handle kind operation := by
  cases kind <;> rfl

theorem Operation.withKwarg_withTarget (operation : Operation) (garden key : String) (v : Json) :
    (operation.withTarget garden).withKwarg key v = (operation.withKwarg key v).withTarget garden :=
  rfl

theorem Operation.target?_withTarget (operation : Operation) (named : garden ≠ "") :
    (operation.withTarget garden).target? = some garden := by
  simp [target?, withTarget, named]

theorem Operation.isLocalTo_withTarget (operation : Operation) (garden : String) :
    (operation.withTarget garden).isLocalTo garden = true := by
  by_cases unnamed : garden = ""
  · exact isLocalTo_of_untargeted (by simp [target?, withTarget, unnamed]) garden
  · rw [isLocalTo_of_target (operation.target?_withTarget unnamed), beq_self_eq_true]

/-- An operation on jobs comes to the same whether it names the garden or none. -/
theorem Action.run_route_withTarget {operation : Operation} {node : Node}
    (unnamed : operation.target? = none) (hkind : operation.kind? = some kind)
    (job : kind ≠ .userSync) :
    (route (operation.withTarget node.name)).run node = (route operation).run node := by
  have same : (operation.withTarget node.name).kind? = some kind := hkind
  have here := Operation.isLocalTo_of_untargeted unnamed node.name
  rw [run_route_here same job (operation.isLocalTo_withTarget _), run_route_here hkind job here,
    Jobs.handle_withTarget]

namespace Http

-- ---------------------------------------------------------------------------
-- Requests
-- ---------------------------------------------------------------------------

structure Request.Elsewhere (garden : String) (there here : Request) : Prop where
  method : there.method = here.method
  path : there.path = here.path
  contentType : there.contentType = here.contentType
  body : there.body = here.body
  named : (parameters there.target.2).lookup gardenParameter = some garden
  others : parameters here.target.2 =
    (parameters there.target.2).filter fun p => p.1 ≠ gardenParameter

def Request.OnJobs (request : Request) : Prop :=
  ∃ endpoint, Endpoint.ofPath? request.path = some endpoint ∧ endpoint ≠ .health

def Call.withTarget (garden : String) : Call → Call
  | .run operation status sendsPayload => .run (operation.withTarget garden) status sendsPayload
  | call => call

section

variable {garden : String} {there here : List (String × String)}
variable (named : there.lookup gardenParameter = some garden)
variable (others : here = there.filter fun p => p.1 ≠ gardenParameter)

include named others

theorem targeted_elsewhere (kind : OperationKind) :
    targeted kind there = (targeted kind here).withTarget garden := by
  have absent : here.lookup gardenParameter = none := by
    rw [others, lookup_filter_ne, if_pos rfl]
  rw [targeted, targeted, named, absent]

theorem listJobs_elsewhere : listJobs there = (listJobs here).withTarget garden := by
  have same : (here.filter fun p => p.1 ≠ gardenParameter) =
      there.filter fun p => p.1 ≠ gardenParameter := by
    rw [others, List.filter_filter]
    simp
  rw [listJobs, listJobs, targeted_elsewhere named others, same]
  rfl

theorem onJob_elsewhere (kind : OperationKind) (id : String) :
    onJob kind there id = (onJob kind here id).withTarget garden := by
  rw [onJob, targeted_elsewhere named others]
  rfl

end

theorem withBody_elsewhere [Coded α] {there here : Request}
    (contentType : there.contentType = here.contentType) (body : there.body = here.body)
    {status : Nat} {make make' : α → Operation}
    (same : ∀ value, make value = (make' value).withTarget garden) :
    withBody there status make = (withBody here status make').withTarget garden := by
  have read : (readBody there : Except Response α) = readBody here := by
    simp only [readBody, contentType, body]
  rw [withBody, withBody, read]
  cases (readBody here : Except Response α) with
  | ok value =>
    dsimp only
    rw [same]
    rfl
  | error response => rfl

theorem Request.Elsewhere.call {there here : Request} (h : there.Elsewhere garden here) :
    there.call = here.call.withTarget garden := by
  have list := listJobs_elsewhere h.named h.others
  have onJob (kind : OperationKind) (id : String) := onJob_elsewhere h.named h.others kind id
  have create : withBody there 201 (createJob (parameters there.target.2)) =
      (withBody here 201 (createJob (parameters here.target.2))).withTarget garden :=
    withBody_elsewhere h.contentType h.body fun definition => by
      rw [createJob, targeted_elsewhere h.named h.others, Operation.withKwarg_withTarget,
        ← createJob]
  have patch (id : String) : withBody there 200 (patchJob (parameters there.target.2) id) =
      (withBody here 200 (patchJob (parameters here.target.2) id)).withTarget garden :=
    withBody_elsewhere h.contentType h.body fun patch => by
      rw [patchJob, onJob, Operation.withKwarg_withTarget, ← patchJob]
  rw [Request.call, Request.call, h.path, h.method]
  cases Endpoint.ofPath? here.path with
  | none => rfl
  | some endpoint =>
    cases endpoint with
    | health =>
      dsimp only
      split <;> rfl
    | jobs =>
      dsimp only
      rw [callOnJobs, callOnJobs, h.method, list, create]
      split <;> rfl
    | job id =>
      dsimp only
      split
      · rfl
      · cases Text.ofUtf8? (Url.percentDecode id) with
        | none => rfl
        | some id =>
          dsimp only
          rw [callOnJob, callOnJob, h.method, onJob, onJob, patch]
          split <;> rfl

-- ---------------------------------------------------------------------------
-- What is asked of the other garden
-- ---------------------------------------------------------------------------

theorem IsAsked.isPortable {operation : Operation} (h : IsAsked garden? operation)
    (numbers : operation.toDocument.Only Number.ReadsBack)
    (depth : operation.toDocument.depth ≤ Document.maxDepth) (garden : String) :
    (operation.withTarget garden).IsPortable where
  args := by simp [Operation.withTarget, h.args]
  order := h.order
  kwargs := h.kwargs
  numbers := by
    rw [Operation.only_toDocument] at numbers ⊢
    exact numbers
  depth := by
    have inner := (Operation.depth_toDocument_le (n := 125)).mp depth
    exact (Operation.depth_toDocument_le (n := 125)).mpr inner

-- ---------------------------------------------------------------------------
-- Answers
-- ---------------------------------------------------------------------------

/-- From afar every failure has the status that it has here, but for a missing job. -/
theorem statusOf_remote (failure : Failure) :
    statusOf (.remote failure.toErrorMessage) =
      if statusOf failure = 404 then 502 else statusOf failure := by
  cases failure with
  | remote error =>
    obtain ⟨kind, message⟩ := error
    cases kind <;> rfl
  | _ => rfl

theorem status_ofResult_told {result : Except Failure Federation.Response}
    (found : status ≠ 404) (sendsPayload : Bool) :
    (Response.ofResult status sendsPayload (Outcome.told result)).status =
      if (Response.ofResult status sendsPayload result).status = 404 then 502
      else (Response.ofResult status sendsPayload result).status := by
  cases result with
  | ok response => exact (if_neg found).symm
  | error failure => exact statusOf_remote failure

theorem body_ofResult_told (result : Except Failure Federation.Response) (status : Nat)
    (sendsPayload : Bool) :
    (Response.ofResult status sendsPayload (Outcome.told result)).body =
      (Response.ofResult status sendsPayload result).body := by
  cases result <;> rfl

theorem Response.body_trimmed {there here : Response} (same : there.body = here.body)
    (method : String) : (there.trimmed method).body = (here.trimmed method).body := by
  rw [trimmed, trimmed]
  split
  · rfl
  · exact same

theorem withBody_answer [Coded α] {request : Request} {make : α → Operation}
    (h : withBody request status make = .answer response) : response.status ≠ 404 := by
  rw [withBody] at h
  split at h
  · cases h
  · rename_i refused
    cases h
    rw [readBody] at refused
    split at refused
    · cases refused
      decide
    · split at refused <;> cases refused <;> decide

theorem Request.OnJobs.status_ne {request : Request} (h : request.OnJobs)
    (hcall : request.call = .answer response) : response.status ≠ 404 := by
  obtain ⟨endpoint, hpath, other⟩ := h
  rw [Request.call, hpath] at hcall
  cases endpoint with
  | health => exact absurd rfl other
  | jobs =>
    simp only [callOnJobs] at hcall
    split at hcall
    · cases hcall
    · cases hcall
    · exact withBody_answer hcall
    · cases hcall
      decide
  | job id =>
    dsimp only at hcall
    split at hcall
    · cases hcall
      decide
    · split at hcall
      · cases hcall
        decide
      · rw [callOnJob] at hcall
        split at hcall
        · cases hcall
        · cases hcall
        · exact withBody_answer hcall
        · cases hcall
        · cases hcall
          decide

theorem Request.OnJobs.call_ne {request : Request} (h : request.OnJobs) :
    request.call ≠ .health := by
  intro hcall
  obtain ⟨endpoint, hpath, other⟩ := h
  rw [Request.call, hpath] at hcall
  cases endpoint with
  | health => exact other rfl
  | jobs =>
    simp only [callOnJobs, withBody] at hcall
    repeat' split at hcall
    all_goals cases hcall
  | job id =>
    simp only [callOnJob, withBody] at hcall
    repeat' split at hcall
    all_goals cases hcall

section

variable {near far after : Node} {hop : Hop} {there here : Request}

theorem Request.Elsewhere.run_withTarget (elsewhere : there.Elsewhere garden here)
    (hcall : here.call = .run operation status sendsPayload)
    (hran : (Action.route operation).run far = (result, after)) :
    (Action.route (operation.withTarget far.name)).run far = (result, after) := by
  have isAsked := (Request.asks_of_call hcall).isAsked
  obtain ⟨kind, hkind, job⟩ := isAsked.kind
  have unnamed : operation.target? = none := by
    rw [isAsked.target?_eq, elsewhere.others, lookup_filter_ne, if_pos rfl, Option.filter_none]
  rw [Action.run_route_withTarget unnamed hkind job, hran]

theorem respond_asked (reaches : near.Reaches far.name hop) (next : hop.next = far)
    (named : far.name ≠ "") (elsewhere : there.Elsewhere far.name here)
    (hcall : here.call = .run operation status sendsPayload)
    (numbers : operation.toDocument.Only Number.ReadsBack)
    (depth : operation.toDocument.depth ≤ Document.maxDepth)
    (hran : (Action.route operation).run far = (result, after)) (broker : Option String) :
    ((respond Action.route broker there).run near).1 =
      .ok ((Response.ofResult status sendsPayload (Outcome.ofResult result).heard).trimmed
        here.method) := by
  have isAsked := (Request.asks_of_call hcall).isAsked
  obtain ⟨kind, hkind, job⟩ := isAsked.kind
  have expects : kind.expectsReply = true := by simpa [OperationKind.expectsReply] using job
  have call := elsewhere.call
  rw [hcall] at call
  have target := operation.target?_withTarget named
  have kindThere : (operation.withTarget far.name).kind? = some kind := hkind
  have ran := elsewhere.run_withTarget hcall hran
  have timeless := (isAsked.withTarget far.name).withoutWaitTimeout
  have stripped : (Action.route (operation.withTarget far.name).withoutWaitTimeout).run hop.next =
      (result, after) := by rw [timeless, next, ran]
  have sent : (operation.withTarget far.name).withoutWaitTimeout.IsPortable := by
    rw [timeless]
    exact isAsked.isPortable numbers depth far.name
  obtain ⟨reply, -, asked, classed, body, -⟩ := reaches.run_request kindThere expects target sent
    stripped (Outcome.isAnswer_here target ran).1
  rw [run_respond_run call asked, elsewhere.method, RemotePath.readReply_heard classed body]

/-- A request for the jobs of another garden gets the status and the body that it would get there,
but for the status when a job is not there. -/
theorem respond_elsewhere (reaches : near.Reaches far.name hop) (next : hop.next = far)
    (named : far.name ≠ "") (onJobs : here.OnJobs) (elsewhere : there.Elsewhere far.name here)
    (asked : ∀ operation status sendsPayload, here.call = .run operation status sendsPayload →
      operation.toDocument.Only Number.ReadsBack ∧
        operation.toDocument.depth ≤ Document.maxDepth)
    (answered : ∀ operation status sendsPayload response after,
      here.call = .run operation status sendsPayload →
      (Action.route operation).run far = (.ok response, after) →
        response.payload.toDocument.Only Number.ReadsBack ∧
          response.payload.toDocument.depth ≤ Document.maxDepth)
    (nearBroker farBroker : Option String) :
    ∃ answer distant, ((respond Action.route farBroker here).run far).1 = .ok answer ∧
      ((respond Action.route nearBroker there).run near).1 = .ok distant ∧
      distant.body = answer.body ∧
      distant.status = if answer.status = 404 then 502 else answer.status := by
  cases hcall : here.call with
  | answer response =>
    have call := elsewhere.call
    rw [hcall] at call
    rw [run_respond_answer hcall, run_respond_answer call, elsewhere.method]
    refine ⟨_, _, rfl, rfl, rfl, ?_⟩
    rw [Response.status_trimmed, if_neg (onJobs.status_ne hcall)]
  | health => exact absurd hcall onJobs.call_ne
  | run operation status sendsPayload =>
    have success := (Request.asks_of_call hcall).status_lt
    obtain ⟨numbers, depth⟩ := asked _ _ _ hcall
    rcases hran : (Action.route operation).run far with ⟨result, after⟩
    have ran := elsewhere.run_withTarget hcall hran
    have portable := Outcome.isPortable_here (operation.target?_withTarget named) ran
      fun response same => answered _ _ _ response after hcall (same ▸ hran)
    have distant := respond_asked reaches next named elsewhere hcall numbers depth hran nearBroker
    rw [Outcome.heard_ofResult portable] at distant
    rw [run_respond_run hcall hran, distant]
    refine ⟨_, _, rfl, rfl, Response.body_trimmed (body_ofResult_told result status _) _, ?_⟩
    rw [Response.status_trimmed, Response.status_trimmed, status_ofResult_told (by omega)]

end

-- ---------------------------------------------------------------------------
-- Two gardens
-- ---------------------------------------------------------------------------

namespace Nearby

def hopTo (far : Node) : Hop := { Relay.lastHop with next := far }

def near (far : Node) : Node := Relay.toFar "near" (hopTo far)

theorem reaches_near (far : Node) (sink : far.sink.connected = true) :
    (near far).Reaches "far" (hopTo far) :=
  ⟨by simp [near, Relay.toFar], ⟨_, rfl⟩, by simp [hopTo, Relay.lastHop], sink⟩

def listing : Request := { uri := "/api/v1/jobs" }

def listingFar : Request := { uri := "/api/v1/jobs?garden=far" }

theorem call_listing : listing.call = .run (listJobs []) 200 true := by
  with_unfolding_all rfl

/-- Both gardens tell of the one job. -/
theorem respond_elsewhere_listing :
    ∃ answer distant, ((respond Action.route none listing).run Relay.far).1 = .ok answer ∧
      ((respond Action.route none listingFar).run (near Relay.far)).1 = .ok distant ∧
      answer.body = .json Relay.jobsOfFar.payload.toDocument ∧ distant.body = answer.body ∧
      answer.status = 200 ∧ distant.status = 200 := by
  have reaches : (near Relay.far).Reaches Relay.far.name (hopTo Relay.far) :=
    reaches_near Relay.far rfl
  have next : (hopTo Relay.far).next = Relay.far := rfl
  have named : Relay.far.name ≠ "" := by decide
  have onJobs : listing.OnJobs := ⟨.jobs, by decide, by decide⟩
  have elsewhere : listingFar.Elsewhere Relay.far.name listing :=
    ⟨rfl, by decide, rfl, rfl, by decide +kernel, by decide +kernel⟩
  have listed := @Relay.run_readAll (listJobs []) rfl rfl rfl
  have plain : (listJobs []).toDocument.Only Number.ReadsBack := by
    rw [Operation.only_toDocument]
    simp [listJobs, targeted, Operation.ofKind, Operation.withKwarg, insertMember,
      Json.toDocument, Json.toDocumentMembers, Document.only_object]
  obtain ⟨answer, distant, here, there, body, status⟩ :=
    respond_elsewhere reaches next named onJobs elsewhere
      (fun operation status sendsPayload hcall => by
        obtain ⟨rfl, -, -⟩ := Call.run.inj (call_listing.symm.trans hcall)
        exact ⟨plain, by decide⟩)
      (fun operation status sendsPayload response after hcall hran => by
        obtain ⟨rfl, -, -⟩ := Call.run.inj (call_listing.symm.trans hcall)
        rw [listed] at hran
        cases hran
        exact Relay.plain_jobsOfFar)
      none none
  have direct := run_respond_run call_listing listed none
  rw [direct] at here
  obtain rfl := Except.ok.inj here
  exact ⟨_, distant, congrArg Prod.fst direct, there, rfl, body, rfl, status⟩

def reading : Request := { uri := "/api/v1/jobs/7" }

def readingFar : Request := { uri := "/api/v1/jobs/7?garden=far" }

theorem call_reading : reading.call = .run (onJob .jobRead [] "7") 200 true := by
  with_unfolding_all rfl

theorem elsewhere_reading : readingFar.Elsewhere "far" reading :=
  ⟨rfl, by decide, rfl, rfl, by decide +kernel, by decide +kernel⟩

/-- The garden far away, with a job that asks for a number which no text brings back. -/
def keeping : Node := { Relay.far with
  store := { tables := some { jobs := [{
    id := "7", name := "nightly", triggerType := "cron", trigger := "null"
    requestTemplate := "1e-25", status := "RUNNING"
    createdAt := Rfc3339.writeStored ⟨⟨2024, 1, 1⟩, 0, 0, 0, 0⟩ }] } } }

def read (far : Node) : Except Failure Federation.Response :=
  ((Action.route (onJob .jobRead [] "7")).run far).1

def answered (result : Except Failure Federation.Response) : Response :=
  (Response.ofResult 200 true result).trimmed reading.method

theorem respond_reading (far : Node) :
    ((respond Action.route none reading).run far).1 = .ok (answered (read far)) := by
  rw [run_respond_run call_reading rfl]
  rfl

theorem respond_readingFar (far : Node) (name : far.name = "far")
    (sink : far.sink.connected = true) :
    ((respond Action.route none readingFar).run (near far)).1 =
      .ok (answered (Outcome.ofResult (read far)).heard) := by
  have reaches : (near far).Reaches far.name (hopTo far) := name ▸ reaches_near far sink
  have next : (hopTo far).next = far := rfl
  have named : far.name ≠ "" := by simp [name]
  have elsewhere : readingFar.Elsewhere far.name reading := name ▸ elsewhere_reading
  have plain : (onJob .jobRead [] "7").toDocument.Only Number.ReadsBack := by
    rw [Operation.only_toDocument]
    simp [onJob, targeted, Operation.ofKind, Operation.withKwarg, insertMember, Json.toDocument]
  exact respond_asked reaches next named elsewhere call_reading plain (by decide) rfl none

def status? (answer : Except Failure Response) : Option Nat :=
  answer.toOption.map Response.status

def text? (answer : Except Failure Response) : Option String :=
  answer.toOption.map fun response =>
    match response.body with
    | .empty => ""
    | .text message => message
    | .json document => document.text

/-- A missing job has another status from afar, and a job with such a number another body. -/
theorem respond_elsewhere_differs :
    reading.OnJobs ∧ readingFar.Elsewhere "far" reading ∧
      (near Relay.far).Reaches "far" (hopTo Relay.far) ∧
      (near keeping).Reaches "far" (hopTo keeping) ∧
      status? ((respond Action.route none reading).run Relay.far).1 = some 404 ∧
      status? ((respond Action.route none readingFar).run (near Relay.far)).1 = some 502 ∧
      status? ((respond Action.route none reading).run keeping).1 = some 200 ∧
      status? ((respond Action.route none readingFar).run (near keeping)).1 = some 200 ∧
      text? ((respond Action.route none reading).run keeping).1 ≠
        text? ((respond Action.route none readingFar).run (near keeping)).1 := by
  rw [respond_reading, respond_reading, respond_readingFar Relay.far rfl rfl,
    respond_readingFar keeping rfl rfl]
  refine ⟨⟨.job ['7'], by decide, by decide⟩, elsewhere_reading, reaches_near _ rfl,
    reaches_near _ rfl, ?_, ?_, ?_, ?_, ?_⟩
  all_goals decide +kernel

end Nearby

end Http

end Federation
