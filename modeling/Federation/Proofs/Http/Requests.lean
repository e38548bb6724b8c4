import Federation.Http.Jobs
import Federation.Proofs.Routing

/-!
# Requests on jobs

What a request runs is an operation on jobs, for the garden that the request names, with nothing but
named values. The answer has the status of the operation's success, or the one for its failure.
-/

namespace Federation.Http

-- ---------------------------------------------------------------------------
-- What requests ask for
-- ---------------------------------------------------------------------------

/-- An operation on jobs as requests for a garden make them, with nothing but named values. -/
structure IsAsked (garden? : Option String) (operation : Operation) : Prop where
  target : operation.targetGardenName = garden?
  kind : ∃ kind, operation.kind? = some kind ∧ kind ≠ .userSync
  args : operation.args = []
  order : InOrder operation.kwargs
  kwargs : ∀ m ∈ operation.kwargs, m.2.Sorted
  timeless : ∀ m ∈ operation.kwargs, m.1 ≠ Operation.waitTimeoutKey

theorem IsAsked.target?_eq {operation : Operation} (h : IsAsked garden? operation) :
    operation.target? = garden?.filter (· ≠ "") := by
  rw [Operation.target?, h.target]

theorem IsAsked.withKwarg {operation : Operation} (h : IsAsked garden? operation)
    (timeless : key ≠ Operation.waitTimeoutKey) (sorted : v.Sorted) :
    IsAsked garden? (operation.withKwarg key v) where
  target := h.target
  kind := h.kind
  args := h.args
  order := h.order.insertMember key v
  kwargs m hmem := by
    rcases mem_insertMember hmem with rfl | hmem
    · exact sorted
    · exact h.kwargs m hmem
  timeless m hmem := by
    rcases mem_insertMember hmem with rfl | hmem
    · exact timeless
    · exact h.timeless m hmem

theorem IsAsked.withTarget {operation : Operation} (h : IsAsked garden? operation)
    (garden : String) : IsAsked (some garden) (operation.withTarget garden) :=
  ⟨rfl, h.kind, h.args, h.order, h.kwargs, h.timeless⟩

theorem IsAsked.withoutWaitTimeout {operation : Operation} (h : IsAsked garden? operation) :
    operation.withoutWaitTimeout = operation := by
  have all : (operation.kwargs.filter fun m => m.1 ≠ Operation.waitTimeoutKey) = operation.kwargs :=
    List.filter_eq_self.mpr fun m hmem => by simpa using h.timeless m hmem
  rw [Operation.withoutWaitTimeout, all]

theorem isAsked_targeted (job : kind ≠ .userSync) (parameters : List (String × String)) :
    IsAsked (parameters.lookup gardenParameter) (targeted kind parameters) := by
  have plain : IsAsked none (.ofKind kind) :=
    ⟨rfl, ⟨kind, OperationKind.ofName?_name kind, job⟩, rfl, inOrder_nil,
      by simp [Operation.ofKind], by simp [Operation.ofKind]⟩
  rw [targeted]
  cases parameters.lookup gardenParameter with
  | some garden => exact plain.withTarget garden
  | none => exact plain

theorem isAsked_onJob (job : kind ≠ .userSync) (parameters : List (String × String))
    (id : String) : IsAsked (parameters.lookup gardenParameter) (onJob kind parameters id) :=
  (isAsked_targeted job parameters).withKwarg (by decide) trivial

theorem isAsked_listJobs {parameters : List (String × String)} (order : InOrder parameters) :
    IsAsked (parameters.lookup gardenParameter) (listJobs parameters) := by
  refine (isAsked_targeted (by decide) parameters).withKwarg (by decide) ?_
  refine Json.sorted_object.mpr ⟨?_, ?_⟩
  · have filtered := order.filter fun p => p.1 ≠ gardenParameter
    rw [InOrder, List.map_map]
    exact filtered
  · exact List.forall_mem_map.mpr fun _ _ => trivial

theorem kind?_targeted (kind : OperationKind) (parameters : List (String × String)) :
    (targeted kind parameters).kind? = some kind := by
  rw [targeted]
  cases parameters.lookup gardenParameter <;> exact OperationKind.ofName?_name kind

theorem kwargs_targeted (kind : OperationKind) (parameters : List (String × String)) :
    (targeted kind parameters).args = [] ∧ (targeted kind parameters).kwargs = [] := by
  rw [targeted]
  cases parameters.lookup gardenParameter <;> exact ⟨rfl, rfl⟩

theorem kind?_withKwarg (operation : Operation) (key : String) (v : Json) :
    (operation.withKwarg key v).kind? = operation.kind? := rfl

theorem kind?_onJob (kind : OperationKind) (parameters : List (String × String)) (id : String) :
    (onJob kind parameters id).kind? = some kind := by
  rw [onJob, kind?_withKwarg, kind?_targeted]

theorem ofText_of_readBody [Coded α] {request : Request} {value : α}
    (h : readBody request = .ok value) : Coded.ofText request.body = .ok value := by
  rw [readBody] at h
  split at h
  · cases h
  · split at h
    · cases h
      assumption
    · cases h
    · cases h

theorem withBody_run [Coded α] {request : Request} {make : α → Operation}
    (h : withBody request wanted make = .run operation status sendsPayload) :
    ∃ value, readBody request = .ok value ∧ operation = make value ∧ status = wanted ∧
      sendsPayload = true := by
  rw [withBody] at h
  split at h
  · obtain ⟨rfl, rfl, rfl⟩ := Call.run.inj h
    exact ⟨_, ‹_›, rfl, rfl, rfl⟩
  · cases h

inductive Request.Asks (request : Request) : Operation → Nat → Prop where
  | list : request.Asks (listJobs (parameters request.target.2)) 200
  | create (definition : JobDefinition) (read : readBody request = .ok definition) :
    request.Asks (createJob (parameters request.target.2) definition) 201
  | read (id : String) : request.Asks (onJob .jobRead (parameters request.target.2) id) 200
  | patch (id : String) (patch : JobPatch) (read : readBody request = .ok patch) :
    request.Asks (patchJob (parameters request.target.2) id patch) 200
  | delete (id : String) : request.Asks (onJob .jobDelete (parameters request.target.2) id) 204

theorem Request.asks_of_call {request : Request}
    (h : request.call = .run operation status sendsPayload) : request.Asks operation status := by
  rw [Request.call] at h
  split at h
  · cases h
  · split at h <;> cases h
  · rw [callOnJobs] at h
    split at h
    · obtain ⟨rfl, rfl, -⟩ := Call.run.inj h
      exact .list
    · obtain ⟨rfl, rfl, -⟩ := Call.run.inj h
      exact .list
    · obtain ⟨definition, read, rfl, rfl, -⟩ := withBody_run h
      exact .create definition read
    · cases h
  · split at h
    · cases h
    · split at h
      · cases h
      · rename_i id _
        rw [callOnJob] at h
        split at h
        · obtain ⟨rfl, rfl, -⟩ := Call.run.inj h
          exact .read id
        · obtain ⟨rfl, rfl, -⟩ := Call.run.inj h
          exact .read id
        · obtain ⟨patch, read, rfl, rfl, -⟩ := withBody_run h
          exact .patch id patch read
        · obtain ⟨rfl, rfl, -⟩ := Call.run.inj h
          exact .delete id
        · cases h

theorem Request.Asks.isAsked {request : Request} (h : request.Asks operation status) :
    IsAsked ((parameters request.target.2).lookup gardenParameter) operation := by
  cases h with
  | list => exact isAsked_listJobs (inOrder_sortMembers _)
  | create definition =>
    exact (isAsked_targeted (by decide) _).withKwarg (by decide) (Document.sorted_toJson _)
  | read id => exact isAsked_onJob (by decide) _ _
  | patch id patch =>
    exact (isAsked_onJob (by decide) _ _).withKwarg (by decide) (Document.sorted_toJson _)
  | delete id => exact isAsked_onJob (by decide) _ _

theorem Request.Asks.status_lt {request : Request} (h : request.Asks operation status) :
    status < 400 := by
  cases h <;> decide

-- ---------------------------------------------------------------------------
-- Answers
-- ---------------------------------------------------------------------------

def Response.ofResult (status : Nat) (sendsPayload : Bool) :
    Except Failure Federation.Response → Response
  | .ok response => ⟨status, if sendsPayload then .json response.payload.toDocument else .empty⟩
  | .error failure => .ofFailure failure

/-- The answer to `HEAD` has no body. -/
def Response.trimmed (method : String) (response : Response) : Response :=
  if method = "HEAD" then { response with body := .empty } else response

theorem run_respond_run {request : Request}
    (hcall : request.call = .run operation status sendsPayload)
    {route : Operation → Action Federation.Response} {node after : Node}
    (ran : (route operation).run node = (result, after)) (broker : Option String) :
    (respond route broker request).run node =
      (.ok ((Response.ofResult status sendsPayload result).trimmed request.method), after) := by
  have performed : (perform route broker request.call).run node =
      (.ok (Response.ofResult status sendsPayload result), after) := by
    rw [hcall, perform, Action.run_settle, Action.run_bind, ran]
    cases result <;> rfl
  rw [respond, Action.run_bind, performed]
  rfl

theorem run_respond_answer {request : Request} (hcall : request.call = .answer response)
    (route : Operation → Action Federation.Response) (broker : Option String) (node : Node) :
    (respond route broker request).run node = (.ok (response.trimmed request.method), node) := by
  rw [respond, hcall]
  rfl

theorem run_respond_health {request : Request} (hcall : request.call = .health)
    (route : Operation → Action Federation.Response) (broker : Option String) (node : Node) :
    (respond route broker request).run node =
      (.ok (Response.trimmed request.method ⟨200, .json (healthOf node.name broker)⟩), node) := by
  rw [respond, hcall]
  rfl

theorem Response.status_trimmed (response : Response) (method : String) :
    (response.trimmed method).status = response.status := by
  rw [trimmed]
  split <;> rfl

end Federation.Http
