import Federation.Proofs.Occasions

/-!
# Failures

What fails has changed nothing: every check comes before the first write, and what can go wrong
after a write does not go wrong in a garden whose store can be read.
-/

namespace Federation

-- ---------------------------------------------------------------------------
-- Gardens that are as they were
-- ---------------------------------------------------------------------------

/-- All is as it was, but for what a scheduler outside was asked, and for the ids and times that
were drawn. -/
def Node.Spared (before after : Node) : Prop :=
  ∃ (calls : List SchedulerCall) (readings : Nat), after =
    { before with effects := before.effects ++ calls.map Effect.schedule, readings }

theorem Node.Spared.refl (node : Node) : node.Spared node := ⟨[], node.readings, by simp⟩

theorem Node.Spared.trans {a b c : Node} (first : a.Spared b) (second : b.Spared c) :
    a.Spared c := by
  obtain ⟨calls, _, rfl⟩ := first
  obtain ⟨more, readings, rfl⟩ := second
  exact ⟨calls ++ more, readings, by simp⟩

theorem Node.Sound.spared {before after : Node} (h : before.Sound) (spared : before.Spared after) :
    after.Sound := by
  obtain ⟨_, _, rfl⟩ := spared
  exact ⟨h.store, h.clock⟩

namespace Action

def Leaves (action : Action α) : Prop := ∀ node : Node, node.Spared (action.run node).2

def FailsCleanly (action : Action α) : Prop :=
  ∀ node : Node, node.Sound → ∀ failure after, action.run node = (.error failure, after) →
    node.Spared after

theorem leaves_pure (value : α) : (pure value : Action α).Leaves := .refl

theorem leaves_throw (failure : Failure) : (throw failure : Action α).Leaves := .refl

theorem leaves_get : (get : Action Node).Leaves := .refl

theorem leaves_ofExcept (result : Except ValidationError α) : (ofExcept result).Leaves := by
  cases result <;> exact .refl

theorem leaves_query (ask : Store → Except StoreError α) : (query ask).Leaves := by
  intro node
  rw [run_query]
  cases ask node.store <;> exact .refl node

theorem leaves_bind {action : Action α} {next : α → Action β} (h : action.Leaves)
    (hn : ∀ value, (next value).Leaves) : (action >>= next).Leaves := by
  intro node
  have first := h node
  rw [run_bind]
  rcases hrun : action.run node with ⟨_ | value, middle⟩ <;> rw [hrun] at first
  · exact first
  · exact first.trans (hn value middle)

theorem Leaves.failsCleanly {action : Action α} (h : action.Leaves) : action.FailsCleanly := by
  intro node _ failure after ran
  have spared := h node
  rwa [ran] at spared

theorem failsCleanly_bind {action : Action α} {next : α → Action β} (h : action.Leaves)
    (hn : ∀ value, (next value).FailsCleanly) : (action >>= next).FailsCleanly := by
  intro node sound failure after ran
  have first := h node
  rw [run_bind] at ran
  rcases hrun : action.run node with ⟨_ | value, middle⟩ <;> rw [hrun] at first ran
  · cases ran
    exact first
  · exact first.trans (hn value middle (sound.spared first) failure after ran)

theorem failsCleanly_map {action : Action α} (f : α → β) (h : action.FailsCleanly) :
    (f <$> action).FailsCleanly := by
  intro node sound failure after ran
  rw [run_map] at ran
  rcases hrun : action.run node with ⟨found | value, middle⟩ <;> rw [hrun] at ran <;> cases ran
  exact h node sound _ _ hrun

-- ---------------------------------------------------------------------------
-- Jobs
-- ---------------------------------------------------------------------------

section Jobs

open Jobs

theorem leaves_ask (answer : History → SchedulerCall → Except Failure Job) (call : SchedulerCall) :
    (ask answer call).Leaves := by
  intro node
  have asked : (ask answer call).run node =
      (answer node.effects call, { node with effects := node.effects ++ [.schedule call] }) := by
    simp only [ask, run_bind, run_get, run_emit]
    cases answer node.effects call <;> rfl
  rw [asked]
  exact ⟨[call], node.readings, rfl⟩

theorem leaves_jobId (operation : Operation) : (jobId operation).Leaves := by
  intro node
  rw [run_jobId]
  exact .refl node

theorem leaves_record [Coded α] (key : String) (position : Nat) (operation : Operation) :
    (record key position operation : Action α).Leaves := by
  intro node
  obtain ⟨failure, ran⟩ := run_record (α := α) key position operation node
  rw [ran]
  exact .refl node

theorem leaves_read (id : String) : (read id).Leaves := by
  refine leaves_bind (leaves_query _) fun found => ?_
  cases found with
  | some job => exact leaves_pure job
  | none => exact leaves_throw _

theorem failsCleanly_store (definition : JobDefinition) :
    (Jobs.store definition).FailsCleanly := by
  intro node _ failure after ran
  rw [run_store] at ran
  split at ran
  · cases ran
    exact .refl node
  · split at ran <;> cases ran
    exact ⟨[], node.readings + 2, by simp⟩

theorem run_setStatus_open {node : Node} {tables : Tables} (same : node.store = ⟨some tables, true⟩)
    (legible : tables.Legible) (id : String) (status : JobStatus) :
    if (tables.jobs.any fun row => row.id = id) then
      ∃ job, (setStatus id status).run node =
        (.ok job, { node with store := ⟨some (tables.withStatus id status), true⟩ })
    else (setStatus id status).run node = (.error (notFound id), node) := by
  rw [run_setStatus, same, Store.setJobStatus_open]
  split
  · rename_i known
    have still := (tables.any_withStatus id status).trans known
    obtain ⟨job, read⟩ := Store.exists_job (legible.withStatus id status) still
    refine ⟨job, ?_⟩
    rw [known]
    dsimp only
    rw [read]
    rfl
  · rename_i unknown
    have absent := Bool.eq_false_iff.mpr unknown
    rw [absent, Tables.withStatus_of_absent absent, ← same]

theorem failsCleanly_setStatus (id : String) (status : JobStatus) :
    (setStatus id status).FailsCleanly := by
  intro node sound failure after ran
  obtain ⟨tables, same, legible⟩ := sound.store
  have known := run_setStatus_open same legible id status
  split at known
  · obtain ⟨job, succeeded⟩ := known
    rw [succeeded] at ran
    cases ran
  · rw [known] at ran
    cases ran
    exact .refl node

theorem failsCleanly_deleteStored (id : String) : (deleteStored id).FailsCleanly := by
  intro node sound failure after ran
  obtain ⟨tables, same, -⟩ := sound.store
  rw [deleteStored, run_bind, run_statement, same, Store.deleteJob_open] at ran
  cases hany : tables.jobs.any fun row => row.id = id with
  | true =>
    rw [hany] at ran
    cases ran
  | false =>
    rw [hany, Tables.withoutJob_of_absent hany, ← same] at ran
    cases ran
    exact .refl node

theorem failsCleanly_create (definition : JobDefinition) : (create definition).FailsCleanly := by
  refine failsCleanly_bind leaves_get fun node => ?_
  cases node.scheduler with
  | store => exact failsCleanly_store definition
  | external answer => exact (leaves_ask answer _).failsCleanly

theorem failsCleanly_pause (id : String) : (pause id).FailsCleanly := by
  refine failsCleanly_bind leaves_get fun node => ?_
  cases node.scheduler with
  | store => exact failsCleanly_setStatus id .paused
  | external answer => exact (leaves_ask answer _).failsCleanly

theorem failsCleanly_resume (id : String) : (resume id).FailsCleanly := by
  refine failsCleanly_bind leaves_get fun node => ?_
  cases node.scheduler with
  | store => exact failsCleanly_setStatus id .running
  | external answer => exact (leaves_ask answer _).failsCleanly

theorem failsCleanly_delete (id : String) : (delete id).FailsCleanly := by
  refine failsCleanly_bind leaves_get fun node => ?_
  cases node.scheduler with
  | store => exact failsCleanly_deleteStored id
  | external answer => exact failsCleanly_map _ (leaves_ask answer _).failsCleanly

theorem failsCleanly_apply (id : String) (status : JobStatus) : (apply id status).FailsCleanly := by
  cases status with
  | paused => exact failsCleanly_pause id
  | running => exact failsCleanly_resume id

theorem run_apply_store {node : Node} (scheduler : node.scheduler = .store) (id : String)
    (status : JobStatus) : (apply id status).run node = (setStatus id status).run node := by
  cases status <;> simp only [apply, pause, resume, run_bind, run_get, scheduler]

theorem spared_apply_external {node : Node} (scheduler : node.scheduler = .external answer)
    (id : String) (status : JobStatus) : node.Spared ((apply id status).run node).2 := by
  cases status with
  | paused =>
    have same : (apply id .paused).run node = (ask answer (.pause id)).run node := by
      simp only [apply, pause, run_bind, run_get, scheduler]
    rw [same]
    exact leaves_ask answer _ node
  | running =>
    have same : (apply id .running).run node = (ask answer (.resume id)).run node := by
      simp only [apply, resume, run_bind, run_get, scheduler]
    rw [same]
    exact leaves_ask answer _ node

theorem run_applyAll_known {node : Node} {tables : Tables} {id : String}
    (scheduler : node.scheduler = .store) (same : node.store = ⟨some tables, true⟩)
    (legible : tables.Legible) (known : (tables.jobs.any fun row => row.id = id) = true)
    {statuses : List JobStatus} (nonempty : statuses ≠ []) :
    ∃ job after, (applyAll id statuses).run node = (.ok job, after) := by
  induction statuses generalizing node tables with
  | nil => exact absurd rfl nonempty
  | cons status rest ih =>
    have set := run_setStatus_open same legible id status
    rw [if_pos known, ← run_apply_store scheduler] at set
    obtain ⟨job, set⟩ := set
    cases rest with
    | nil => exact ⟨job, _, set⟩
    | cons next rest =>
      obtain ⟨last, after, ran⟩ := @ih { node with
        store := ⟨some (tables.withStatus id status), true⟩ } _ scheduler rfl
        (legible.withStatus id status) ((tables.any_withStatus id status).trans known) (by simp)
      refine ⟨last, after, ?_⟩
      have unfolded : applyAll id (status :: next :: rest) = (do
          discard (apply id status)
          applyAll id (next :: rest)) := rfl
      rw [unfolded, run_bind, run_discard, set]
      exact ran

/-- Only the first instruction of a patch can miss the job. -/
theorem failsCleanly_applyAll (id : String) (statuses : List JobStatus) :
    (applyAll id statuses).FailsCleanly := by
  induction statuses with
  | nil => exact (leaves_throw _).failsCleanly
  | cons status rest ih =>
    cases rest with
    | nil => exact failsCleanly_apply id status
    | cons next rest =>
      intro node sound failure after ran
      have whole := ran
      have unfolded : applyAll id (status :: next :: rest) = (do
          discard (apply id status)
          applyAll id (next :: rest)) := rfl
      rw [unfolded, run_bind, run_discard] at ran
      rcases hfirst : (apply id status).run node with ⟨failed | job, middle⟩ <;> rw [hfirst] at ran
      · cases ran
        exact failsCleanly_apply id status node sound _ _ hfirst
      cases scheduler : node.scheduler with
      | external answer =>
        have spared := spared_apply_external scheduler id status
        rw [hfirst] at spared
        exact spared.trans (ih middle (sound.spared spared) failure after ran)
      | store =>
        obtain ⟨tables, same, legible⟩ := sound.store
        have set := run_setStatus_open same legible id status
        rw [← run_apply_store scheduler, hfirst] at set
        split at set
        · rename_i known
          obtain ⟨last, done, succeeded⟩ := run_applyAll_known scheduler same legible known
            (List.cons_ne_nil status (next :: rest))
          rw [succeeded] at whole
          cases whole
        · cases set

theorem failsCleanly_applyPatch (id : String) (patch : JobPatch) :
    (applyPatch id patch).FailsCleanly :=
  failsCleanly_bind (leaves_ofExcept _) fun statuses => failsCleanly_applyAll id statuses

theorem failsCleanly_handleJob (kind : OperationKind) (operation : Operation) :
    (Jobs.handle kind operation).FailsCleanly := by
  cases kind with
  | jobCreate =>
    exact failsCleanly_map _
      (failsCleanly_bind (leaves_record "job" 0 operation) failsCleanly_create)
  | jobRead =>
    exact failsCleanly_map _
      (failsCleanly_bind (leaves_jobId operation) fun id => (leaves_read id).failsCleanly)
  | jobReadAll => exact (leaves_bind (leaves_query _) fun jobs => leaves_pure _).failsCleanly
  | jobUpdate =>
    exact failsCleanly_bind (leaves_record "patch" 1 operation) fun patch =>
      failsCleanly_bind (leaves_jobId operation) fun id =>
        failsCleanly_map _ (failsCleanly_applyPatch id patch)
  | jobPause =>
    exact failsCleanly_map _ (failsCleanly_bind (leaves_jobId operation) failsCleanly_pause)
  | jobResume =>
    exact failsCleanly_map _ (failsCleanly_bind (leaves_jobId operation) failsCleanly_resume)
  | jobDelete =>
    have acknowledged : Jobs.handle .jobDelete operation =
        (fun _ => Response.ack) <$> (jobId operation >>= delete) := map_eq_pure_bind .. |>.symm
    rw [acknowledged]
    exact failsCleanly_map _ (failsCleanly_bind (leaves_jobId operation) failsCleanly_delete)
  | userSync => exact (leaves_throw _).failsCleanly

end Jobs

-- ---------------------------------------------------------------------------
-- Users
-- ---------------------------------------------------------------------------

section Users

open Users

theorem run_forM_ok {act : α → Action Unit} {xs : List α}
    (h : ∀ x ∈ xs, ∀ node, ((act x).run node).1 = .ok ()) (node : Node) :
    ((xs.forM act).run node).1 = .ok () := by
  induction xs generalizing node with
  | nil => rfl
  | cons x rest ih =>
    obtain ⟨first, others⟩ := List.forall_mem_cons.mp h
    rw [run_forM_cons (Prod.ext (first node) rfl)]
    exact ih others _

theorem push_succeeds (route : Operation → Action Response) {node : Node} (sound : node.Sound) :
    ((push route).run node).1 = .ok () := by
  obtain ⟨users, husers⟩ := sound.store.exists_users
  obtain ⟨gardens, hgardens⟩ := sound.store.exists_remoteGardens
  rw [push, run_bind, run_query, husers]
  dsimp only
  rw [run_bind, run_query, hgardens]
  refine run_forM_ok (fun garden _ node => ?_) node
  rw [pushTo, settle_log]

theorem sync_succeeds (route : Operation → Action Response) (records : List Json) {node : Node}
    (sound : node.Sound) : ((sync route records).run node).1 = .ok () := by
  have imported : ((records.forM tryImport).run node).1 = .ok () := by
    refine run_forM_ok (fun record _ node => ?_) node
    rw [tryImport, settle_log]
  obtain ⟨still, -⟩ := lasting_sound.imports records node sound
  rw [sync, run_bind]
  rcases hrun : (records.forM tryImport).run node with ⟨_ | value, middle⟩ <;>
    rw [hrun] at imported still
  · cases imported
  · exact push_succeeds route still

theorem failsCleanly_handleUsers (route : Operation → Action Response) (operation : Operation) :
    (Users.handle route operation).FailsCleanly := by
  intro node sound failure after ran
  unfold Users.handle at ran
  split at ran
  · cases ran
    exact .refl node
  · rename_i records _
    have succeeded := sync_succeeds route records sound
    rw [run_bind] at ran
    rcases hrun : (sync route records).run node with ⟨_ | value, middle⟩ <;>
      rw [hrun] at succeeded ran
    · cases succeeded
    · cases ran

end Users

-- ---------------------------------------------------------------------------
-- Operations and requests
-- ---------------------------------------------------------------------------

theorem failsCleanly_handle (route : Operation → Action Response) (kind : OperationKind)
    (operation : Operation) : (handle route kind operation).FailsCleanly := by
  by_cases job : kind = .userSync
  · subst job
    exact failsCleanly_handleUsers route operation
  · rw [handle_job job]
    exact failsCleanly_handleJob kind operation

/-- An operation for this garden that fails has changed nothing. -/
theorem spared_route {node after : Node} {failure : Failure} (sound : node.Sound)
    (here : operation.isLocalTo node.name = true)
    (ran : (route operation).run node = (.error failure, after)) : node.Spared after := by
  rw [route, maxDepth, routeWithin, run_routeBy] at ran
  cases hdecide : node.decide operation with
  | error refused =>
    rw [hdecide] at ran
    cases ran
    exact .refl node
  | ok way =>
    rw [hdecide] at ran
    obtain ⟨kind, -, rfl | ⟨garden, link, target, away, -⟩⟩ := Node.decide_cases hdecide
    · exact failsCleanly_handle _ kind operation node sound failure after ran
    · rw [Operation.isLocalTo, target] at here
      exact absurd (by simpa using here) away

end Action

namespace Http

theorem spared_respond {node : Node} (sound : node.Sound) (broker : Option String)
    (request : Request) (untargeted : (parameters request.target.2).lookup gardenParameter = none) :
    ∃ answer after, (respond Action.route broker request).run node = (.ok answer, after) ∧
      (400 ≤ answer.status → node.Spared after) := by
  cases hcall : request.call with
  | answer response => exact ⟨_, _, run_respond_answer hcall _ broker node, fun _ => .refl node⟩
  | health => exact ⟨_, _, run_respond_health hcall _ broker node, fun _ => .refl node⟩
  | run operation status sendsPayload =>
    have asks := Request.asks_of_call hcall
    rcases hran : (Action.route operation).run node with ⟨failure | response, after⟩
    · refine ⟨_, after, run_respond_run hcall hran broker, fun _ => ?_⟩
      have unnamed : operation.target? = none := by
        rw [asks.isAsked.target?_eq, untargeted, Option.filter_none]
      exact Action.spared_route sound (Operation.isLocalTo_of_untargeted unnamed _) hran
    · refine ⟨_, after, run_respond_run hcall hran broker, fun error => ?_⟩
      have success : status < 400 := asks.status_lt
      rw [Response.status_trimmed] at error
      exact absurd success (Nat.not_lt.mpr error)

end Http

/-- In whatever a garden can come to, an operation for it that fails and a request for it that is
answered with an error change nothing. -/
theorem failures_spare {node : Node} (reached : node.Reached) :
    (∀ operation failure after, operation.isLocalTo node.name = true →
      (Action.route operation).run node = (.error failure, after) → node.Spared after) ∧
    ∀ broker request,
      (Http.parameters request.target.2).lookup Http.gardenParameter = none →
        ∃ answer after,
          (Http.respond Action.route broker request).run node = (.ok answer, after) ∧
            (400 ≤ answer.status → node.Spared after) :=
  ⟨fun _ _ _ here ran => Action.spared_route reached.sound here ran,
    fun broker request untargeted => Http.spared_respond reached.sound broker request untargeted⟩

-- ---------------------------------------------------------------------------
-- A garden with one job
-- ---------------------------------------------------------------------------

namespace Jobs

def keptNode : Node := ((Occasion.operation creation).action.run quietNode).2

theorem reached_keptNode : keptNode.Reached := by
  have legible : creation.Legible :=
    ⟨fun v hv => (isJobCall_creation.args v hv).weaken fun _ => Number.IsInteger.isFinite,
      fun m hm => (isJobCall_creation.kwargs m hm).weaken fun _ => Number.IsInteger.isFinite⟩
  exact .after _ legible (.empty rfl keepsJobs_quietNode.clock)

def setting (status : JobStatus) : Json :=
  (PatchInstruction.mk "update" "/status" (.string status.name)).toDocument.toJson

def patching : Operation :=
  (naming .jobUpdate "jj").withKwarg "patch" (.array [setting .paused, setting .running])

def deletion : Http.Request := { method := "DELETE", uri := "/api/v1/jobs/jj" }

theorem failures_spare_keptNode :
    (∃ failure after, (Action.route patching).run keptNode = (.error failure, after) ∧
      keptNode.Spared after) ∧
    ∃ answer after,
      (Http.respond Action.route none deletion).run keptNode = (.ok answer, after) ∧
        answer.status = 404 ∧ keptNode.Spared after := by
  obtain ⟨operations, requests⟩ := failures_spare reached_keptNode
  constructor
  · rcases hran : (Action.route patching).run keptNode with ⟨failure | response, after⟩
    · exact ⟨failure, after, rfl, operations patching failure after (by decide) hran⟩
    · have failed : ((Action.route patching).run keptNode).1.toOption.isNone = true := by
        decide +kernel
      rw [hran] at failed
      cases failed
  · obtain ⟨answer, after, ran, spared⟩ := requests none deletion (by decide +kernel)
    have status : ((Http.respond Action.route none deletion).run keptNode).1.toOption.map
        Http.Response.status = some 404 := by decide +kernel
    rw [ran] at status
    have status : answer.status = 404 := Option.some.inj status
    exact ⟨answer, after, ran, status, spared (by omega)⟩

end Jobs

end Federation
