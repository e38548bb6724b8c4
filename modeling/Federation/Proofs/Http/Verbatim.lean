import Federation.Proofs.Http.Elsewhere
import Federation.Proofs.Json.Submissions

/-!
# Requests taken at their word

A request on the jobs of this garden does what the operation does that carries its path, its query
and its body as they stand. That its body is taken for a definition or a patch and written down
again in between makes no difference, except where a patch gives a name twice.
-/

namespace Federation

-- ---------------------------------------------------------------------------
-- Operations that come to the same
-- ---------------------------------------------------------------------------

namespace Jobs

theorem handle_congr {a b : Operation} (args : a.args = b.args) (kwargs : a.kwargs = b.kwargs)
    (kind : OperationKind) : handle kind a = handle kind b := by
  obtain ⟨_, _, _, _⟩ := a
  obtain ⟨_, _, _, _⟩ := b
  cases args
  cases kwargs
  cases kind <;> rfl

theorem record_withKwarg [Coded α] {value : Json} {x : α} (h : Coded.ofJson value = .ok x)
    (operation : Operation) (key : String) (position : Nat) :
    record key position (operation.withKwarg key value) = pure x := by
  have found : (operation.withKwarg key value).kwarg? key = some value := by
    simp [Operation.kwarg?, Operation.withKwarg, lookup_insertMember]
  rw [record, found]
  simp only [Option.orElse_some, h]

theorem handle_create {v w : Json} {definition : JobDefinition}
    (hv : Coded.ofJson v = .ok definition) (hw : Coded.ofJson w = .ok definition)
    (operation : Operation) :
    handle .jobCreate (operation.withKwarg "job" v) =
      handle .jobCreate (operation.withKwarg "job" w) := by
  simp only [handle, record_withKwarg hv, record_withKwarg hw]

theorem jobId_withKwarg (operation : Operation) (other : key ≠ "job_id") (v : Json) :
    jobId (operation.withKwarg key v) = jobId operation := by
  have same : (operation.withKwarg key v).stringParam? "job_id" =
      operation.stringParam? "job_id" := by
    simp [Operation.stringParam?, Operation.kwarg?, Operation.withKwarg, lookup_insertMember,
      Ne.symm other]
  rw [jobId, jobId, same]

theorem handle_update {v w : Json} {patch : JobPatch} (hv : Coded.ofJson v = .ok patch)
    (hw : Coded.ofJson w = .ok patch) (operation : Operation) :
    handle .jobUpdate (operation.withKwarg "patch" v) =
      handle .jobUpdate (operation.withKwarg "patch" w) := by
  simp only [handle, record_withKwarg hv, record_withKwarg hw]
  rw [jobId_withKwarg _ (by decide), jobId_withKwarg _ (by decide)]

end Jobs

structure Operation.Alike (kind : OperationKind) (a b : Operation) : Prop where
  job : kind ≠ .userSync
  first : a.kind? = some kind
  second : b.kind? = some kind
  handled : Jobs.handle kind a = Jobs.handle kind b

theorem Operation.Alike.run_route {a b : Operation} {node : Node} (h : a.Alike kind b)
    (here : a.isLocalTo node.name = true) (there : b.isLocalTo node.name = true) :
    (Action.route a).run node = (Action.route b).run node := by
  rw [Action.run_route_here h.first h.job here, Action.run_route_here h.second h.job there,
    h.handled]

namespace Http

-- ---------------------------------------------------------------------------
-- What requests carry
-- ---------------------------------------------------------------------------

/-- What a request on jobs says as it stands, `v` being the value of its body: an operation for no
garden in particular, the status of a success, and whether the payload is sent. -/
inductive Request.Verbatim (request : Request) (v : Json) : Operation → Nat → Bool → Prop where
  | list (path : Endpoint.ofPath? request.path = some .jobs)
    (method : request.method = "GET" ∨ request.method = "HEAD") :
    Verbatim request v ((Operation.ofKind .jobReadAll).withKwarg "filter_params"
      (.object (((parameters request.target.2).filter fun p => p.1 ≠ gardenParameter).map
        fun p => (p.1, .string p.2)))) 200 true
  | create (path : Endpoint.ofPath? request.path = some .jobs) (method : request.method = "POST")
    (body : Coded.ofText request.body = .ok v) :
    Verbatim request v ((Operation.ofKind .jobCreate).withKwarg "job" v) 201 true
  | read {text : List Char} {id : String}
    (path : Endpoint.ofPath? request.path = some (.job text))
    (decoded : Text.ofUtf8? (Url.percentDecode text) = some id)
    (method : request.method = "GET" ∨ request.method = "HEAD") :
    Verbatim request v ((Operation.ofKind .jobRead).withKwarg "job_id" (.string id)) 200 true
  | patch {text : List Char} {id : String}
    (path : Endpoint.ofPath? request.path = some (.job text))
    (decoded : Text.ofUtf8? (Url.percentDecode text) = some id)
    (method : request.method = "PATCH") (body : Coded.ofText request.body = .ok v) :
    Verbatim request v (((Operation.ofKind .jobUpdate).withKwarg "job_id" (.string id)).withKwarg
      "patch" v) 200 true
  | delete {text : List Char} {id : String}
    (path : Endpoint.ofPath? request.path = some (.job text))
    (decoded : Text.ofUtf8? (Url.percentDecode text) = some id)
    (method : request.method = "DELETE") :
    Verbatim request v ((Operation.ofKind .jobDelete).withKwarg "job_id" (.string id)) 204 false

theorem Request.Verbatim.target? {request : Request} {v : Json}
    (h : request.Verbatim v raw status sendsPayload) : raw.target? = none := by
  cases h <;> rfl

/-- A request carries one operation. -/
theorem Request.Verbatim.unique {request : Request} {v : Json}
    (h : request.Verbatim v raw status sendsPayload)
    (h' : request.Verbatim v other status' sendsPayload') : other = raw := by
  cases h <;> cases h' <;> simp_all

def Request.StaysAt (garden : String) (request : Request) : Prop :=
  ∀ named, (parameters request.target.2).lookup gardenParameter = some named →
    named = "" ∨ named = garden

theorem IsAsked.isLocalTo {operation : Operation} {garden : String} (h : IsAsked garden? operation)
    (stays : ∀ named, garden? = some named → named = "" ∨ named = garden) :
    operation.isLocalTo garden = true := by
  have target := h.target?_eq
  cases garden? with
  | none => exact Operation.isLocalTo_of_untargeted target garden
  | some named =>
    by_cases unnamed : named = ""
    · exact Operation.isLocalTo_of_untargeted (by simp [target, unnamed]) garden
    · obtain rfl := (stays named rfl).resolve_left unnamed
      have here : operation.target? = some named := by simp [target, unnamed]
      rw [Operation.isLocalTo_of_target here, beq_self_eq_true]

theorem alike_targeted (kind : OperationKind) (job : kind ≠ .userSync)
    (parameters : List (String × String)) (key : String) (v : Json) :
    ((targeted kind parameters).withKwarg key v).Alike kind
      ((Operation.ofKind kind).withKwarg key v) := by
  obtain ⟨args, kwargs⟩ := kwargs_targeted kind parameters
  refine ⟨job, kind?_targeted kind parameters, OperationKind.ofName?_name kind,
    Jobs.handle_congr args ?_ kind⟩
  rw [Operation.withKwarg, kwargs]
  rfl

theorem alike_createJob {v : Json} {definition : JobDefinition}
    (parameters : List (String × String))
    (written : Coded.ofJson definition.toDocument.toJson = .ok definition)
    (given : Coded.ofJson v = .ok definition) :
    (createJob parameters definition).Alike .jobCreate
      ((Operation.ofKind .jobCreate).withKwarg "job" v) := by
  have plain := alike_targeted .jobCreate (by decide) parameters "job" v
  exact ⟨plain.job, plain.first, plain.second,
    (Jobs.handle_create written given _).trans plain.handled⟩

theorem alike_patchJob {v : Json} {patch : JobPatch} (parameters : List (String × String))
    (id : String) (written : Coded.ofJson patch.toDocument.toJson = .ok patch)
    (given : Coded.ofJson v = .ok patch) :
    (patchJob parameters id patch).Alike .jobUpdate
      (((Operation.ofKind .jobUpdate).withKwarg "job_id" (.string id)).withKwarg "patch" v) := by
  obtain ⟨args, kwargs⟩ := kwargs_targeted .jobUpdate parameters
  refine ⟨by decide, kind?_onJob .jobUpdate parameters id,
    OperationKind.ofName?_name .jobUpdate, ?_⟩
  rw [patchJob, Jobs.handle_update written given]
  refine Jobs.handle_congr args ?_ .jobUpdate
  rw [Operation.withKwarg, onJob, Operation.withKwarg, kwargs]
  rfl

section

variable {request : Request} {v : Json}

theorem Request.verbatim_of_call
    (body : request.method = "POST" ∨ request.method = "PATCH" → Coded.ofText request.body = .ok v)
    (clear : request.method = "PATCH" → JobPatch.Clear (Document.read request.body.toList).1)
    (h : request.call = .run operation status sendsPayload) :
    ∃ raw kind, request.Verbatim v raw status sendsPayload ∧ operation.Alike kind raw := by
  rw [Request.call] at h
  split at h
  · cases h
  · split at h <;> cases h
  · rename_i path
    rw [callOnJobs] at h
    split at h
    · rename_i method
      obtain ⟨rfl, rfl, rfl⟩ := Call.run.inj h
      exact ⟨_, _, .list path (.inl method), alike_targeted .jobReadAll (by decide) _ _ _⟩
    · rename_i method
      obtain ⟨rfl, rfl, rfl⟩ := Call.run.inj h
      exact ⟨_, _, .list path (.inr method), alike_targeted .jobReadAll (by decide) _ _ _⟩
    · rename_i method
      obtain ⟨definition, read, rfl, rfl, rfl⟩ := withBody_run h
      have read := ofText_of_readBody read
      have value := body (.inl method)
      exact ⟨_, _, .create path method value, alike_createJob _
        (JobDefinition.ofJson_toJson read) (JobDefinition.ofJson_of_ofText value read)⟩
    · cases h
  · rename_i text path
    split at h
    · cases h
    · split at h
      · cases h
      · rename_i id decoded
        rw [callOnJob] at h
        split at h
        · rename_i method
          obtain ⟨rfl, rfl, rfl⟩ := Call.run.inj h
          exact ⟨_, _, .read path decoded (.inl method), alike_targeted .jobRead (by decide) _ _ _⟩
        · rename_i method
          obtain ⟨rfl, rfl, rfl⟩ := Call.run.inj h
          exact ⟨_, _, .read path decoded (.inr method), alike_targeted .jobRead (by decide) _ _ _⟩
        · rename_i method
          obtain ⟨patch, read, rfl, rfl, rfl⟩ := withBody_run h
          have read := ofText_of_readBody read
          have value := body (.inr method)
          exact ⟨_, _, .patch path decoded method value, alike_patchJob _ id
            (JobPatch.ofJson_toJson read) (JobPatch.ofJson_of_ofText value (clear method) read)⟩
        · rename_i method
          obtain ⟨rfl, rfl, rfl⟩ := Call.run.inj h
          exact ⟨_, _, .delete path decoded method, alike_targeted .jobDelete (by decide) _ _ _⟩
        · cases h

theorem le_statusOf (failure : Failure) : 400 ≤ statusOf failure := by
  cases failure with
  | remote error =>
    obtain ⟨kind, message⟩ := error
    cases kind <;> simp [statusOf, Failure.kind]
  | _ => simp [statusOf, Failure.kind]

theorem status_ofResult_lt (success : status < 400) (sendsPayload : Bool)
    (result : Except Failure Federation.Response) (method : String) :
    ((Response.ofResult status sendsPayload result).trimmed method).status < 400 ↔
      ∃ response, result = .ok response := by
  rw [Response.status_trimmed]
  cases result with
  | ok response => exact ⟨fun _ => ⟨response, rfl⟩, fun _ => success⟩
  | error failure => exact ⟨fun low => absurd (le_statusOf failure) (Nat.not_le.mpr low), nofun⟩

/-- A request on the jobs of this garden that is accepted does what it says and is answered with
what came of that: the payload, where one is sent, or the error. -/
theorem respond_verbatim {node : Node} (stays : request.StaysAt node.name)
    (body : request.method = "POST" ∨ request.method = "PATCH" → Coded.ofText request.body = .ok v)
    (clear : request.method = "PATCH" → JobPatch.Clear (Document.read request.body.toList).1)
    (accepted : request.call = .run operation status sendsPayload) (broker : Option String) :
    ∃ raw result after answer, request.Verbatim v raw status sendsPayload ∧
      (∀ other, request.Verbatim v other status sendsPayload → other = raw) ∧
      (Action.route raw).run node = (result, after) ∧
      (respond Action.route broker request).run node = (.ok answer, after) ∧
      answer = (Response.ofResult status sendsPayload result).trimmed request.method ∧
      (answer.status < 400 ↔ ∃ response, result = .ok response) := by
  obtain ⟨raw, kind, verbatim, alike⟩ := Request.verbatim_of_call body clear accepted
  have asked := Request.asks_of_call accepted
  have here : operation.isLocalTo node.name = true := asked.isAsked.isLocalTo stays
  have there : raw.isLocalTo node.name = true :=
    Operation.isLocalTo_of_untargeted verbatim.target? node.name
  rcases ran : (Action.route raw).run node with ⟨result, after⟩
  have routed := alike.run_route here there
  rw [ran] at routed
  exact ⟨raw, result, after, _, verbatim, fun _ => verbatim.unique, ran,
    run_respond_run accepted routed broker, rfl,
    status_ofResult_lt asked.status_lt sendsPayload result request.method⟩

end

-- ---------------------------------------------------------------------------
-- A job that is paused
-- ---------------------------------------------------------------------------

namespace Pausing

open Nearby (keeping status?)

def members : List (String × Document) :=
  [("operation", .string "update"), ("path", .string "/status"), ("value", .string "PAUSED")]

def listed : Document := .array [.object members]

def doubled : Document :=
  .object (members ++ [("operations", .array []), ("operations", .array [])])

def patching (d : Document) : Request where
  method := "PATCH"
  uri := "/api/v1/jobs/7"
  contentType := some "application/json"
  body := d.text

def patch : JobPatch := ⟨[⟨"update", "/status", .string "PAUSED"⟩]⟩

theorem target_patching (d : Document) : (patching d).target = Nearby.reading.target := by
  have uri : (patching d).uri = Nearby.reading.uri := rfl
  simp only [Request.target, uri]

theorem parameters_patching (d : Document) : parameters (patching d).target.2 = [] := by
  rw [target_patching]
  decide +kernel

theorem path_patching (d : Document) :
    Endpoint.ofPath? (patching d).path = some (.job ['7']) := by
  rw [Request.path, target_patching]
  decide +kernel

theorem stays_patching (d : Document) : (patching d).StaysAt keeping.name := by
  intro named found
  rw [parameters_patching] at found
  cases found

structure Sent (d : Document) : Prop where
  numbers : d.Only Number.ReadsBack
  depth : d.depth ≤ Document.maxDepth
  read : JobPatch.decoder .text d = .ok patch

theorem sent_listed : Sent listed :=
  ⟨by simp [listed, members, Document.only_object, Document.only_array], by decide, rfl⟩

theorem sent_doubled : Sent doubled :=
  ⟨by simp [doubled, members, Document.only_object, Document.only_array], by decide, rfl⟩

theorem Sent.readBody {d : Document} (h : Sent d) : readBody (patching d) = .ok patch := by
  have media : (patching d).contentType.any isJsonMedia = true := by
    show (some "application/json").any isJsonMedia = true
    decide +kernel
  have read : (Coded.ofText (patching d).body : Except DecodeError JobPatch) = .ok patch :=
    (Decoder.ofText_text _ h.numbers h.depth).trans h.read
  rw [Http.readBody, media, read]
  rfl

theorem Sent.call {d : Document} (h : Sent d) :
    (patching d).call = .run (patchJob [] "7" patch) 200 true := by
  have decoded : Text.ofUtf8? (Url.percentDecode ['7']) = some "7" := by decide +kernel
  have allowed : jobMethods.contains (patching d).method = true := by
    show jobMethods.contains "PATCH" = true
    decide
  rw [Request.call, path_patching, parameters_patching]
  simp only [allowed, decoded, callOnJob, withBody, h.readBody]
  rfl

theorem Sent.answered {d : Document} (h : Sent d) :
    status? ((respond Action.route none (patching d)).run keeping).1 = some 200 := by
  rcases ran : (Action.route (patchJob [] "7" patch)).run keeping with ⟨result, after⟩
  have found : result.toOption.isSome = true := by
    have routed : (((Action.route (patchJob [] "7" patch)).run keeping).1).toOption.isSome =
        true := by decide +kernel
    rwa [ran] at routed
  rw [run_respond_run h.call ran]
  cases result with
  | ok response => rfl
  | error failure => cases found

theorem Sent.value {d : Document} (h : Sent d) : Coded.ofText (patching d).body = .ok d.toJson :=
  (Decoder.ofText_text _ h.numbers h.depth).trans (Decoder.json_of_only h.numbers .text)

theorem Sent.verbatim {d : Document} (h : Sent d) :
    (patching d).Verbatim d.toJson (((Operation.ofKind .jobUpdate).withKwarg "job_id"
      (.string "7")).withKwarg "patch" d.toJson) 200 true := by
  have decoded : Text.ofUtf8? (Url.percentDecode ['7']) = some "7" := by decide +kernel
  exact .patch (path_patching d) decoded rfl h.value

/-- A patch in the form of a list pauses the job. -/
theorem respond_verbatim_listed :
    (patching listed).StaysAt keeping.name ∧
      ∃ raw result after answer, (patching listed).Verbatim listed.toJson raw 200 true ∧
        (Action.route raw).run keeping = (result, after) ∧
        (respond Action.route none (patching listed)).run keeping = (.ok answer, after) ∧
        answer.status = 200 := by
  have clear : JobPatch.Clear (Document.read (patching listed).body.toList).1 := by
    have text : (patching listed).body.toList = listed.render := by
      simp [patching, Document.text]
    rw [text, Document.read_render sent_listed.numbers sent_listed.depth]
    trivial
  have stays := stays_patching listed
  obtain ⟨raw, result, after, answer, verbatim, -, ran, answered, -, -⟩ :=
    respond_verbatim stays (fun _ => sent_listed.value) (fun _ => clear) sent_listed.call none
  have status := sent_listed.answered
  rw [answered] at status
  exact ⟨stays, raw, result, after, answer, verbatim, ran, answered, Option.some.inj status⟩

/-- The value of a patch with two lists is a patch without instructions, which is refused, but the
request is taken for its instruction. -/
theorem respond_verbatim_doubled :
    (patching doubled).StaysAt keeping.name ∧
      (∃ operation, (patching doubled).call = .run operation 200 true) ∧
      status? ((respond Action.route none (patching doubled)).run keeping).1 = some 200 ∧
      ∃ v raw, Coded.ofText (patching doubled).body = .ok v ∧
        (patching doubled).Verbatim v raw 200 true ∧
        ((Action.route raw).run keeping).1.toOption.isSome = false := by
  refine ⟨stays_patching doubled, ⟨_, sent_doubled.call⟩, sent_doubled.answered, doubled.toJson, _,
    sent_doubled.value, sent_doubled.verbatim, ?_⟩
  decide +kernel

end Pausing

end Http

end Federation
