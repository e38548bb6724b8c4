import Federation.Listener
import Federation.Proofs.Actions
import Federation.Proofs.Json.Values

/-!
# What handling an operation does to others

Whatever a garden is asked to do, it stays who it is, and what it publishes goes to the garden that
the published operation is for. An answer is a job or an acknowledgement.
-/

namespace Federation

/-- What is published for a garden names that garden, and there are no messages besides. -/
def Effect.Addressed : Effect → Prop
  | .publish garden operation => operation.target? = some garden
  | .send .. => False
  | _ => True

theorem Operation.isLocalTo_of_untargeted {operation : Operation} (h : operation.target? = none)
    (garden : String) : operation.isLocalTo garden = true := by
  rw [isLocalTo, h]

theorem Operation.isLocalTo_of_target {operation : Operation}
    (h : operation.target? = some target) (garden : String) :
    operation.isLocalTo garden = (target == garden) := by
  rw [isLocalTo, h]

theorem Operation.target?_of_not_local {operation : Operation}
    (h : operation.isLocalTo garden = false) :
    operation.target? = some (operation.target?.getD "") ∧ operation.target?.getD "" ≠ garden := by
  simp only [isLocalTo] at h
  cases ht : operation.target? with
  | none => simp [ht] at h
  | some target => simpa [ht] using h

namespace Action

variable {p : Effect → Prop}

-- ---------------------------------------------------------------------------
-- Jobs
-- ---------------------------------------------------------------------------

section Jobs

open Jobs

variable (hp : ∀ call, p (.schedule call))

include hp in
theorem does_ask (answer : History → SchedulerCall → Except Failure Job) (call : SchedulerCall) :
    (ask answer call).Does p := by
  refine does_bind does_get fun node => does_bind (does_emit (hp call)) fun _ => ?_
  cases answer node.effects call with
  | ok job => exact does_pure job
  | error failure => exact does_throw failure

theorem does_setStatus (id : String) (status : JobStatus) : (setStatus id status).Does p := by
  refine does_bind (does_statement _) fun found => ?_
  split
  · exact does_query _
  · exact does_throw _

theorem does_store (definition : JobDefinition) : (Jobs.store definition).Does p :=
  does_bind (does_ofExcept _) fun _ => does_bind (does_fresh _) fun _ =>
    does_bind (does_fresh _) fun _ => does_bind (does_change _) fun _ => does_pure _

theorem does_deleteStored (id : String) : (deleteStored id).Does p := by
  refine does_bind (does_statement _) fun found => ?_
  cases found with
  | true => exact does_pure _
  | false => exact does_throw _

include hp

theorem does_create (definition : JobDefinition) : (create definition).Does p := by
  refine does_bind does_get fun node => ?_
  cases node.scheduler with
  | store => exact does_store definition
  | external answer => exact does_ask hp answer _

theorem does_pause (id : String) : (pause id).Does p := by
  refine does_bind does_get fun node => ?_
  cases node.scheduler with
  | store => exact does_setStatus id .paused
  | external answer => exact does_ask hp answer _

theorem does_resume (id : String) : (resume id).Does p := by
  refine does_bind does_get fun node => ?_
  cases node.scheduler with
  | store => exact does_setStatus id .running
  | external answer => exact does_ask hp answer _

theorem does_delete (id : String) : (delete id).Does p := by
  refine does_bind does_get fun node => ?_
  cases node.scheduler with
  | store => exact does_deleteStored id
  | external answer => exact does_map _ (does_ask hp answer _)

theorem does_apply (id : String) (status : JobStatus) : (apply id status).Does p := by
  cases status with
  | running => exact does_resume hp id
  | paused => exact does_pause hp id

theorem does_applyAll (id : String) (statuses : List JobStatus) : (applyAll id statuses).Does p := by
  induction statuses with
  | nil => exact does_refuse _
  | cons status rest ih =>
    cases rest with
    | nil => exact does_apply hp id status
    | cons next rest => exact does_bind (does_map _ (does_apply hp id status)) fun _ => ih

omit hp in
theorem does_read (id : String) : (read id).Does p := by
  refine does_bind (does_query _) fun found => ?_
  cases found with
  | some job => exact does_pure job
  | none => exact does_throw _

omit hp in
theorem does_jobId (operation : Operation) : (jobId operation).Does p := by
  unfold jobId
  split
  · exact does_pure _
  · exact does_refuse _

omit hp in
theorem does_record [Coded α] (key : String) (position : Nat) (operation : Operation) :
    (record key position operation : Action α).Does p := by
  unfold record
  split
  · exact does_refuse _
  · split
    · exact does_pure _
    · exact does_refuse _

theorem does_handleJob (kind : OperationKind) (operation : Operation) :
    (Jobs.handle kind operation).Does p := by
  cases kind with
  | jobCreate =>
    exact does_map _ (does_bind (does_record "job" 0 operation) fun job => does_create hp job)
  | jobRead => exact does_map _ (does_bind (does_jobId operation) fun id => does_read id)
  | jobReadAll => exact does_bind (does_query _) fun _ => does_pure _
  | jobUpdate =>
    exact does_bind (does_record "patch" 1 operation) fun patch =>
      does_bind (does_jobId operation) fun id =>
        does_map _ (does_bind (does_ofExcept _) fun statuses => does_applyAll hp id statuses)
  | jobPause => exact does_map _ (does_bind (does_jobId operation) fun id => does_pause hp id)
  | jobResume => exact does_map _ (does_bind (does_jobId operation) fun id => does_resume hp id)
  | jobDelete =>
    exact does_bind (does_bind (does_jobId operation) fun id => does_delete hp id) fun _ =>
      does_pure _
  | userSync => exact does_throw _

end Jobs

-- ---------------------------------------------------------------------------
-- Users
-- ---------------------------------------------------------------------------

section Users

open Users

theorem does_update (user : User) (patch : Patch) (hashed : Option String) :
    (update user patch hashed).Does p := by
  have stored (user : User) : (do
      change fun store => store.putUser user
      let now ← fresh Supply.now
      announce (.userUpdated (← get).name user.toSynced now)
      pure user : Action User).Does p :=
    does_bind (does_change _) fun _ => does_bind (does_fresh _) fun _ =>
      does_bind does_get fun _ => does_bind (does_announce _) fun _ => does_pure _
  unfold update
  dsimp only
  split
  · exact does_bind (does_pure _) fun _ => stored _
  · exact does_bind (does_map _ (does_fresh _)) fun _ => stored _
  · exact does_bind (does_pure _) fun _ => stored _

theorem does_importRecord (record : Json) : (importRecord record).Does p := by
  refine does_bind (does_ofExcept _) fun synced => does_bind (does_ofExcept _) fun _ =>
    does_bind (does_query _) fun held => ?_
  cases held with
  | some user => exact does_map _ (does_update _ _ _)
  | none =>
    dsimp only
    split
    · exact does_pure _
    · exact does_bind (does_change _) fun _ => does_map _ (does_update _ _ _)

theorem does_tryImport (record : Json) : (tryImport record).Does p :=
  does_settle (does_importRecord record) fun _ => does_log _

variable {route : Operation → Action Response} (hr : ∀ operation, (route operation).Does p)

include hr

theorem does_push : (push route).Does p :=
  does_bind (does_query _) fun _ => does_bind (does_query _) fun _ =>
    does_forM fun _ _ => does_settle (does_map _ (hr _)) fun _ => does_log _

theorem does_handleUsers (operation : Operation) : (Users.handle route operation).Does p := by
  unfold Users.handle
  split
  · exact does_refuse _
  · exact does_bind (does_bind (does_forM fun record _ => does_tryImport record) fun _ =>
      does_push hr) fun _ => does_pure _

end Users

theorem does_absorb (event : GardenEvent) : (Users.handleEvent event).Does p := by
  refine does_bind does_get fun node => ?_
  split
  · exact does_pure _
  · exact does_settle (does_change _) fun _ => does_log _

theorem does_onEvent (body : String) : (Listener.onEvent body).Does p := by
  unfold Listener.onEvent
  split
  · exact does_absorb _
  · exact does_log _

-- ---------------------------------------------------------------------------
-- Routing
-- ---------------------------------------------------------------------------

theorem does_handle {route : Operation → Action Response}
    (hr : ∀ operation, (route operation).Does Effect.Addressed) (kind : OperationKind)
    (operation : Operation) : (handle route kind operation).Does Effect.Addressed := by
  cases kind with
  | userSync => exact does_handleUsers hr operation
  | _ => exact does_handleJob (fun _ => trivial) _ operation

end Action

namespace Node

/-- An operation is handled, or it goes over a link to another garden, which it is for. -/
theorem decide_cases {node : Node} (h : node.decide operation = .ok way) :
    ∃ kind, operation.kind? = some kind ∧ (way = .handle kind ∨
      ∃ garden link, operation.target? = some garden ∧ garden ≠ node.name ∧
        (node.registry.get? garden).bind Registry.liveLink? = some link ∧
        way = if kind.expectsReply then
          .request garden link operation.withoutWaitTimeout operation.waitTimeout?
        else .publish garden link operation.withoutWaitTimeout) := by
  rw [decide] at h
  split at h
  · cases h
  case h_2 kind hkind =>
    refine ⟨kind, hkind, ?_⟩
    split at h
    · split at h <;> cases h
      exact .inl rfl
    case isFalse away =>
      obtain ⟨named, other⟩ := Operation.target?_of_not_local (Bool.eq_false_iff.mpr away)
      dsimp only at h
      split at h
      · cases h
      case h_2 entry hentry =>
        split at h
        · cases h
        case h_2 link hlink =>
          refine .inr ⟨_, link, named, other, by rw [hentry]; exact hlink, ?_⟩
          cases expects : kind.expectsReply
          · simpa [expects] using h.symm
          · simpa [expects] using h.symm

theorem decide_publish {node : Node}
    (h : node.decide operation = .ok (.publish garden link sent)) :
    sent.target? = some garden ∧ garden ≠ node.name ∧ sent = operation.withoutWaitTimeout := by
  obtain ⟨kind, -, handled | ⟨_, _, named, other, -, away⟩⟩ := decide_cases h
  · cases handled
  · split at away <;> cases away
    exact ⟨named, other, rfl⟩

theorem decide_handle {node : Node} (h : node.decide operation = .ok (.handle kind)) :
    operation.kind? = some kind ∧ operation.isLocalTo node.name = true := by
  rw [decide] at h
  split at h
  · cases h
  · rename_i found
    split at h
    · rename_i here
      split at h <;> cases h
      exact ⟨found, here⟩
    · dsimp only at h
      repeat' split at h
      all_goals cases h

theorem decide_request {node : Node}
    (h : node.decide operation = .ok (.request garden link sent wait)) :
    operation.kind?.any OperationKind.expectsReply = true ∧ operation.target? = some garden := by
  obtain ⟨kind, hkind, handled | ⟨_, _, named, -, -, away⟩⟩ := decide_cases h
  · cases handled
  · split at away <;> cases away
    exact ⟨by simpa [hkind] using ‹kind.expectsReply = true›, named⟩

theorem link_of_decide {node : Node}
    (h : node.decide operation = .ok (.request garden link sent wait)) :
    (node.registry.get? garden).bind Registry.liveLink? = some link := by
  obtain ⟨_, -, handled | ⟨_, _, -, -, linked, away⟩⟩ := decide_cases h
  · cases handled
  · split at away <;> cases away
    exact linked

section Away

variable {node : Node} {operation : Operation} {kind : OperationKind} {garden : String}
variable (hkind : operation.kind? = some kind) (htarget : operation.target? = some garden)
variable (away : garden ≠ node.name)

include hkind htarget away

omit hkind in
theorem isLocalTo_away : operation.isLocalTo node.name = false := by
  rw [Operation.isLocalTo_of_target htarget, beq_false_of_ne away]

theorem decide_away (hentry : node.registry.get? garden = some entry)
    (hlink : Registry.liveLink? entry = some link) :
    node.decide operation = .ok
      (if kind.expectsReply then
        .request garden link operation.withoutWaitTimeout operation.waitTimeout?
      else .publish garden link operation.withoutWaitTimeout) := by
  have remote := isLocalTo_away htarget away
  simp only [decide, hkind, remote, htarget, Option.getD_some, hentry, hlink]
  cases kind.expectsReply <;> rfl

theorem decide_unconnected (hentry : node.registry.get? garden = some entry)
    (hlink : Registry.liveLink? entry = none) :
    node.decide operation = .error (.notConnected garden) := by
  have remote := isLocalTo_away htarget away
  simp only [decide, hkind, remote, htarget, Option.getD_some, hentry, hlink, Bool.false_eq_true,
    if_false]

theorem decide_unlinked
    (hlink : (node.registry.get? garden).bind Registry.liveLink? = none) :
    ∃ failure, node.decide operation = .error failure := by
  have remote := isLocalTo_away htarget away
  cases hentry : node.registry.get? garden with
  | none =>
    simp only [decide, hkind, remote, htarget, Option.getD_some, hentry]
    exact ⟨_, rfl⟩
  | some entry =>
    rw [hentry, Option.bind_some] at hlink
    exact ⟨_, decide_unconnected hkind htarget away hentry hlink⟩

end Away

end Node

namespace Action

theorem does_publish {p : Effect → Prop} (link : Link) (h : p (.publish garden operation)) :
    (publish garden link operation).Does p := by
  refine does_bind does_get fun node => does_bind (does_emit h) fun _ => ?_
  split
  · exact does_pure _
  · exact does_throw _

theorem does_request (garden : String) (link : Link) (operation : Operation)
    (wait : Option Duration) : (request garden link operation wait).Does Effect.Addressed := by
  refine does_bind does_get fun node => does_bind (does_emit trivial) fun _ => ?_
  split
  · exact does_pure _
  · exact does_throw _

theorem run_routeBy (handle : OperationKind → Operation → Action Response) (operation : Operation)
    (node : Node) :
    (routeBy handle operation).run node =
      (match node.decide operation with
        | .error failure => throw failure
        | .ok (.handle kind) => handle kind operation
        | .ok (.publish garden link operation) => do
          publish garden link operation
          pure .ack
        | .ok (.request garden link operation wait) =>
          request garden link operation wait : Action Response).run node := rfl

theorem handle_job (job : kind ≠ .userSync) (route : Operation → Action Response)
    (operation : Operation) : handle route kind operation = Jobs.handle kind operation := by
  cases kind with
  | userSync => exact absurd rfl job
  | _ => rfl

theorem run_route_here {operation : Operation} {node : Node}
    (hkind : operation.kind? = some kind) (job : kind ≠ .userSync)
    (here : operation.isLocalTo node.name = true) :
    (route operation).run node =
      if node.handlers.contains kind then (Jobs.handle kind operation).run node
      else (.error (.noHandler kind.name), node) := by
  rw [route, maxDepth, routeWithin, run_routeBy, Node.decide, hkind]
  simp only [here, if_true]
  cases node.handlers.contains kind with
  | false => rfl
  | true => rw [if_pos rfl, if_pos rfl, ← handle_job job (routeWithin 7)]

/-- However deep operations nest, what is published is addressed. -/
theorem does_routeWithin (depth : Nat) (operation : Operation) :
    (routeWithin depth operation).Does Effect.Addressed := by
  induction depth generalizing operation with
  | zero => exact does_throw _
  | succ depth ih =>
    intro node
    rw [routeWithin, run_routeBy]
    cases hdecide : node.decide operation with
    | error failure => exact does_throw failure node
    | ok way =>
      cases way with
      | handle kind => exact does_handle ih kind operation node
      | publish garden link sent =>
        exact does_bind (does_publish link (Node.decide_publish hdecide).1)
          (fun _ => does_pure _) node
      | request garden link sent wait => exact does_request garden link sent wait node

theorem returns_handle (route : Operation → Action Response) (kind : OperationKind)
    (operation : Operation) :
    (handle route kind operation).Returns fun response =>
      (response.modelClass = ModelClass.job ∨ response.modelClass = ModelClass.ack) ∧
        response.payload.Sorted := by
  have responds (job : Job) : ((Jobs.respond job).modelClass = ModelClass.job ∨
      (Jobs.respond job).modelClass = ModelClass.ack) ∧ (Jobs.respond job).payload.Sorted :=
    ⟨.inl rfl, Document.sorted_toJson _⟩
  cases kind with
  | userSync =>
    simp only [handle, Users.handle]
    split
    · exact returns_throw _
    · exact returns_bind fun _ => returns_pure ⟨.inr rfl, trivial⟩
  | jobCreate => exact returns_map responds
  | jobRead => exact returns_map responds
  | jobReadAll =>
    refine returns_bind fun jobs => returns_pure ⟨.inl rfl, Json.sorted_array.mpr ?_⟩
    exact List.forall_mem_map.mpr fun job _ => Document.sorted_toJson _
  | jobUpdate => exact returns_bind fun _ => returns_bind fun _ => returns_map responds
  | jobPause => exact returns_map responds
  | jobResume => exact returns_map responds
  | jobDelete => exact returns_bind fun _ => returns_pure ⟨.inr rfl, trivial⟩

end Action

end Federation
