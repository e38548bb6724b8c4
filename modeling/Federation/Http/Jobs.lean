import Federation.Http.Message
import Federation.Routing

/-!
# The job surface

Every request on jobs becomes an operation, which is routed, so that the parameter `garden` reaches
the jobs of another garden.
-/

namespace Federation.Http

open Federation.Action

inductive Endpoint where
  | health
  | jobs
  | job (id : List Char)
  deriving DecidableEq, Repr

def jobsPath : List Char := "/api/v1/jobs".toList

def Endpoint.ofPath? (path : List Char) : Option Endpoint :=
  if path = "/health".toList then some .health
  else if path = jobsPath then some .jobs
  else if (jobsPath ++ ['/']).isPrefixOf path then
    let id := path.drop (jobsPath.length + 1)
    if id.isEmpty || id.contains '/' then none else some (.job id)
  else none

/-- What a request asks for: an answer that is ready, the state of the garden, or an operation, with
the status of its success and whether its payload is sent. -/
inductive Call where
  | answer (response : Response)
  | health
  | run (operation : Operation) (status : Nat) (sendsPayload : Bool)

def gardenParameter : String := "garden"

def targeted (kind : OperationKind) (parameters : List (String × String)) : Operation :=
  match parameters.lookup gardenParameter with
  | some garden => (Operation.ofKind kind).withTarget garden
  | none => .ofKind kind

def listJobs (parameters : List (String × String)) : Operation :=
  let filter := parameters.filter fun p => p.1 ≠ gardenParameter
  (targeted .jobReadAll parameters).withKwarg "filter_params"
    (.object (filter.map fun (name, value) => (name, .string value)))

def createJob (parameters : List (String × String)) (definition : JobDefinition) : Operation :=
  (targeted .jobCreate parameters).withKwarg "job" definition.toDocument.toJson

def onJob (kind : OperationKind) (parameters : List (String × String)) (id : String) : Operation :=
  (targeted kind parameters).withKwarg "job_id" (.string id)

def patchJob (parameters : List (String × String)) (id : String) (patch : JobPatch) : Operation :=
  (onJob .jobUpdate parameters id).withKwarg "patch" patch.toDocument.toJson

def notAllowed : Call := .answer ⟨405, .empty⟩

def withBody [Coded α] (request : Request) (status : Nat) (make : α → Operation) : Call :=
  match readBody request with
  | .ok value => .run (make value) status true
  | .error response => .answer response

def callOnJobs (request : Request) (parameters : List (String × String)) : Call :=
  match request.method with
  | "GET" | "HEAD" => .run (listJobs parameters) 200 true
  | "POST" => withBody request 201 (createJob parameters)
  | _ => notAllowed

def callOnJob (request : Request) (parameters : List (String × String)) (id : String) : Call :=
  match request.method with
  | "GET" | "HEAD" => .run (onJob .jobRead parameters id) 200 true
  | "PATCH" => withBody request 200 (patchJob parameters id)
  | "DELETE" => .run (onJob .jobDelete parameters id) 204 false
  | _ => notAllowed

def jobMethods : List String := ["GET", "HEAD", "PATCH", "DELETE"]

def Request.call (request : Request) : Call :=
  let parameters := parameters request.target.2
  match Endpoint.ofPath? request.path with
  | none => .answer ⟨404, .empty⟩
  | some .health =>
    if request.method = "GET" ∨ request.method = "HEAD" then .health else notAllowed
  | some .jobs => callOnJobs request parameters
  | some (.job id) =>
    if !jobMethods.contains request.method then notAllowed
    else
      match Text.ofUtf8? (Url.percentDecode id) with
      | none => .answer ⟨400, .text "Invalid URL: Invalid UTF-8 in `id`"⟩
      | some id => callOnJob request parameters id

def statusOf (failure : Failure) : Nat :=
  match failure, failure.kind with
  | .notFound .., _ => 404
  | _, .parse | _, .validation | _, .routing => 400
  | _, .remoteUnreachable => 503
  | _, .backend => 502
  | _, .internal => 500

def Response.ofFailure (failure : Failure) : Response :=
  ⟨statusOf failure, .json failure.toErrorMessage.toDocument⟩

/-- The state of the garden; `broker` is the state of its connection, if it has one. -/
def healthOf (garden : String) (broker : Option String) : Document :=
  .object [("status", .string "OK"), ("garden", .string garden), ("broker", .ofText? broker)]

def perform (route : Operation → Action Federation.Response) (broker : Option String) :
    Call → Action Response
  | .answer response => pure response
  | .health => do
    let node ← get
    pure ⟨200, .json (healthOf node.name broker)⟩
  | .run operation status sendsPayload =>
    settle
      (do
        let response ← route operation
        pure ⟨status, if sendsPayload then .json response.payload.toDocument else .empty⟩)
      fun failure => pure (.ofFailure failure)

/-- Answers a request; the answer to `HEAD` has no body. -/
def respond (route : Operation → Action Federation.Response) (broker : Option String)
    (request : Request) : Action Response := do
  let response ← perform route broker request.call
  pure (if request.method = "HEAD" then { response with body := .empty } else response)

end Federation.Http
