import Federation.Proofs.Routing
import Federation.Proofs.Store.Jobs

/-!
# The job store as a ledger

What a garden answers to operations on jobs says which jobs it keeps: those whose creation was
answered and whose deletion was not, each as it was created but for the last status that an answer
confirmed. A ledger that only looks at the operations and their answers and the store always agree.
-/

namespace Federation

open Number (IsInteger)

-- ---------------------------------------------------------------------------
-- What operations say
-- ---------------------------------------------------------------------------

namespace Operation

def jobId? (operation : Operation) : Option String :=
  (operation.stringParam? "job_id").filter (· ≠ "")

def record? [Coded α] (operation : Operation) (key : String) (position : Nat) : Option α :=
  ((operation.kwarg? key).orElse fun _ => operation.args[position]?).bind fun value =>
    (Coded.ofJson value).toOption

def patched? (operation : Operation) : Option JobStatus := do
  let patch : JobPatch ← operation.record? "patch" 1
  (← patch.statuses.toOption).getLast?

/-- The job as it was asked for, with the id and the time that the answer tells. -/
def created? (operation : Operation) (response : Response) : Option Job := do
  let definition : JobDefinition ← operation.record? "job" 0
  let answered : Job ← (Coded.ofJson response.payload).toOption
  some {
    id := answered.id, name := definition.name, triggerType := definition.triggerType
    trigger := definition.trigger, requestTemplate := definition.requestTemplate
    status := .running, createdAt := answered.createdAt }

end Operation

-- ---------------------------------------------------------------------------
-- The ledger
-- ---------------------------------------------------------------------------

namespace Jobs

def settled (id? : Option String) (status? : Option JobStatus) (jobs : List Job) : List Job :=
  match id?, status? with
  | some id, some status => Store.setStatus id status jobs
  | _, _ => jobs

/-- What an operation and its answer make of the jobs that there were. A failure leaves them. -/
def note (jobs : List Job) : Operation × Except Failure Response → List Job
  | (_, .error _) => jobs
  | (operation, .ok response) =>
    match operation.kind? with
    | some .jobCreate => jobs ++ (operation.created? response).toList
    | some .jobDelete => jobs.filter fun job => some job.id ≠ operation.jobId?
    | some .jobPause => settled operation.jobId? (some .paused) jobs
    | some .jobResume => settled operation.jobId? (some .running) jobs
    | some .jobUpdate => settled operation.jobId? operation.patched? jobs
    | _ => jobs

def ledger (history : List (Operation × Except Failure Response)) : List Job :=
  history.foldl note []

def answersJob : List OperationKind := [.jobRead, .jobUpdate, .jobPause, .jobResume]

end Jobs

def Node.routeAll (node : Node) :
    List Operation → List (Operation × Except Failure Response) × Node
  | [] => ([], node)
  | operation :: rest =>
    let (answer, next) := (Action.route operation).run node
    let (history, last) := next.routeAll rest
    ((operation, answer) :: history, last)

-- ---------------------------------------------------------------------------
-- Gardens that keep jobs
-- ---------------------------------------------------------------------------

/-- An operation on jobs that is handled here, with arguments as they come from a text. -/
structure Operation.IsJobCall (operation : Operation) (garden : String) : Prop where
  kind : ∃ kind ∈ Jobs.kinds, operation.kind? = some kind
  here : operation.isLocalTo garden = true
  args : ∀ v ∈ operation.args, v.Within IsInteger Document.maxDepth
  kwargs : ∀ m ∈ operation.kwargs, m.2.Within IsInteger Document.maxDepth

/-- The store runs the jobs of the garden, and these are they. Ids are never given twice. -/
structure Node.KeepsJobs (node : Node) (jobs : List Job) : Prop where
  scheduler : node.scheduler = .store
  store : node.store.KeepsJobs jobs
  sound : ∀ job ∈ jobs, job.Within IsInteger
  known : ∀ job ∈ jobs, ∃ n < node.readings, job.id = node.supply.id n
  unique : (jobs.map Job.id).Nodup
  ids : node.supply.id.Injective
  clock : ∀ n, (node.supply.now n).Valid

namespace Jobs

open Federation.Action

variable {node : Node} {jobs : List Job} {id : String}

-- ---------------------------------------------------------------------------
-- Statuses
-- ---------------------------------------------------------------------------

theorem find?_setStatus (jobs : List Job) (id : String) (status : JobStatus) :
    (Store.setStatus id status jobs).find? (fun job => job.id = id) =
      (jobs.find? fun job => job.id = id).map fun job => { job with status } := by
  induction jobs with
  | nil => rfl
  | cons job rest ih =>
    unfold Store.setStatus at ih ⊢
    by_cases same : job.id = id
    · simp [same]
    · simp [same, ih]

theorem find?_setStatus_of_ne {other : String} (h : other ≠ id) (status : JobStatus) :
    (Store.setStatus id status jobs).find? (fun job => job.id = other) =
      jobs.find? fun job => job.id = other := by
  induction jobs with
  | nil => rfl
  | cons job rest ih =>
    unfold Store.setStatus at ih ⊢
    by_cases same : job.id = id
    · simp [same, Ne.symm h, ih]
    · by_cases found : job.id = other
      · simp [found, h]
      · simp [same, found, ih]

theorem setStatus_of_absent (h : ∀ job ∈ jobs, job.id ≠ id) (status : JobStatus) :
    Store.setStatus id status jobs = jobs := by
  unfold Store.setStatus
  refine (List.map_congr_left (g := fun job => job) fun job hmem => ?_).trans (List.map_id' _)
  rw [if_neg (h job hmem)]

theorem setStatus_setStatus (id : String) (first second : JobStatus) (jobs : List Job) :
    Store.setStatus id second (Store.setStatus id first jobs) = Store.setStatus id second jobs := by
  unfold Store.setStatus
  rw [List.map_map]
  refine List.map_congr_left fun job _ => ?_
  simp only [Function.comp_apply]
  by_cases same : job.id = id <;> simp [same]

theorem mem_setStatus {status : JobStatus} (h : job ∈ Store.setStatus id status jobs) :
    ∃ old ∈ jobs, job = old ∨ job = { old with status } := by
  obtain ⟨old, hold, rfl⟩ := List.mem_map.mp h
  refine ⟨old, hold, ?_⟩
  split
  · exact .inr rfl
  · exact .inl rfl

theorem KeepsJobs.setStatus (h : node.KeepsJobs jobs) (id : String) (status : JobStatus)
    {store : Store} (kept : store.KeepsJobs (Store.setStatus id status jobs)) :
    Node.KeepsJobs { node with store } (Store.setStatus id status jobs) where
  scheduler := h.scheduler
  store := kept
  sound job hmem := by
    obtain ⟨old, hold, rfl | rfl⟩ := mem_setStatus hmem
    · exact h.sound _ hold
    · have sound := h.sound old hold
      exact ⟨sound.trigger, sound.requestTemplate, sound.createdAt⟩
  known job hmem := by
    obtain ⟨old, hold, rfl | rfl⟩ := mem_setStatus hmem
    · exact h.known _ hold
    · exact h.known old hold
  unique := by
    rw [Store.map_id_setStatus]
    exact h.unique
  ids := h.ids
  clock := h.clock

theorem KeepsJobs.job? (h : node.KeepsJobs jobs) (id : String) :
    node.store.job? id = .ok (jobs.find? fun job => job.id = id) :=
  h.store.job? (fun job hmem => (h.sound job hmem).weaken fun _ => Number.IsInteger.readsBack) id

theorem job_eq_of_find? (h : node.KeepsJobs jobs) (id : String) :
    node.store.job id = match jobs.find? (fun job => job.id = id) with
      | some job => .ok job
      | none => .error (.notFound "Job" id) := by
  rw [Store.job, KeepsJobs.job? h id]
  cases jobs.find? fun job => job.id = id <;> rfl

structure Settles (node : Node) (jobs : List Job) (id : String) (status : JobStatus)
    (result : Except Failure Job × Node) : Prop where
  answer : result.1 = match (Store.setStatus id status jobs).find? (fun job => job.id = id) with
    | some job => .ok job
    | none => .error (notFound id)
  kept : result.2.KeepsJobs (Store.setStatus id status jobs)
  name : result.2.name = node.name

theorem settles_setStatus (h : node.KeepsJobs jobs) (id : String) (status : JobStatus) :
    Settles node jobs id status ((setStatus id status).run node) := by
  obtain ⟨store, changed, kept⟩ := h.store.setJobStatus id status
  have after := KeepsJobs.setStatus h id status kept
  rw [run_setStatus, changed]
  cases hany : jobs.any fun job => job.id = id with
  | false =>
    have absent : (Store.setStatus id status jobs).find? (fun job => job.id = id) = none := by
      rw [find?_setStatus, Option.map_eq_none_iff, List.find?_eq_none]
      exact List.any_eq_false.mp hany
    exact ⟨by rw [absent], after, rfl⟩
  | true =>
    obtain ⟨job, hmem, same⟩ := List.any_eq_true.mp hany
    have reads := job_eq_of_find? after id
    refine ⟨?_, after, rfl⟩
    dsimp only at reads ⊢
    rw [reads, find?_setStatus]
    cases hfound : jobs.find? fun job => job.id = id with
    | none => exact absurd same (List.find?_eq_none.mp hfound job hmem)
    | some found => rfl

theorem settles_apply (h : node.KeepsJobs jobs) (id : String) (status : JobStatus) :
    Settles node jobs id status ((apply id status).run node) := by
  have same : (apply id status).run node = (setStatus id status).run node := by
    cases status <;> simp only [apply, pause, resume, run_bind, run_get, h.scheduler]
  rw [same]
  exact settles_setStatus h id status

/-- The last of several statuses counts. Only the first can miss the job. -/
theorem settles_applyAll (h : node.KeepsJobs jobs) (id : String) {statuses : List JobStatus}
    (last : statuses.getLast? = some status) :
    Settles node jobs id status ((applyAll id statuses).run node) := by
  induction statuses generalizing node jobs with
  | nil => cases last
  | cons first rest ih =>
    cases rest with
    | nil =>
      cases last
      exact settles_apply h id first
    | cons next rest =>
      have unfolded : applyAll id (first :: next :: rest) = (do
          discard (apply id first)
          applyAll id (next :: rest)) := rfl
      rw [unfolded, run_bind, run_discard]
      obtain ⟨answer, kept, name⟩ := settles_apply h id first
      rcases hrun : (apply id first).run node with ⟨result, middle⟩
      rw [hrun] at answer kept name
      rw [find?_setStatus] at answer
      cases hfound : jobs.find? fun job => job.id = id with
      | none =>
        rw [hfound] at answer
        subst answer
        have absent : ∀ job ∈ jobs, job.id ≠ id := fun job hmem =>
          by simpa using List.find?_eq_none.mp hfound job hmem
        rw [setStatus_of_absent absent] at kept
        refine ⟨?_, ?_, name⟩
        · rw [setStatus_of_absent absent, hfound]
          rfl
        · rw [setStatus_of_absent absent]
          exact kept
      | some job =>
        rw [hfound] at answer
        subst answer
        obtain ⟨answer', kept', name'⟩ := ih kept (by simpa using last)
        rw [setStatus_setStatus] at answer' kept'
        exact ⟨answer', kept', name'.trans name⟩

-- ---------------------------------------------------------------------------
-- Arguments
-- ---------------------------------------------------------------------------

theorem run_jobId (operation : Operation) (node : Node) :
    (jobId operation).run node =
      (match operation.jobId? with
        | some id => .ok id
        | none => .error (.validation (.required "job_id")), node) := by
  unfold jobId Operation.jobId?
  cases (operation.stringParam? "job_id").filter (· ≠ "") <;> rfl

theorem run_record [Coded α] (key : String) (position : Nat) (operation : Operation) (node : Node) :
    ∃ failure, (record key position operation : Action α).run node =
      (match (operation.record? key position : Option α) with
        | some value => .ok value
        | none => .error failure, node) := by
  unfold record Operation.record?
  cases (operation.kwarg? key).orElse fun _ => operation.args[position]? with
  | none => exact ⟨_, rfl⟩
  | some value =>
    dsimp only [Option.bind_some]
    cases (Coded.ofJson value : Except DecodeError α) with
    | ok found => exact ⟨.disconnected, rfl⟩
    | error e => exact ⟨_, rfl⟩

theorem mem_of_lookup {members : List (String × α)} (h : members.lookup key = some v) :
    (key, v) ∈ members := by
  obtain ⟨before, after, rfl, -⟩ := List.lookup_eq_some_iff.mp h
  simp

theorem exists_of_record [Coded α] {operation : Operation} {x : α}
    (h : operation.record? key position = some x) :
    ∃ v, (v ∈ operation.args ∨ (key, v) ∈ operation.kwargs) ∧ Coded.ofJson v = .ok x := by
  obtain ⟨v, found, read⟩ := Option.bind_eq_some_iff.mp h
  have decoded : Coded.ofJson v = .ok x := by
    cases hread : (Coded.ofJson v : Except DecodeError α) with
    | ok y =>
      rw [hread] at read
      cases read
      rfl
    | error e =>
      rw [hread] at read
      cases read
  cases named : operation.kwarg? key with
  | some w =>
    rw [named] at found
    cases found
    exact ⟨v, .inr (mem_of_lookup named), decoded⟩
  | none =>
    rw [named] at found
    exact ⟨v, .inl (List.mem_of_getElem? found), decoded⟩

theorem within_of_record {operation : Operation}
    (args : ∀ v ∈ operation.args, v.Within p Document.maxDepth)
    (kwargs : ∀ m ∈ operation.kwargs, m.2.Within p Document.maxDepth)
    (found : operation.record? "job" 0 = some definition) :
    JobDefinition.Within p Document.maxDepth definition := by
  obtain ⟨v, hmem, read⟩ := exists_of_record found
  have within : v.Within p Document.maxDepth := hmem.elim (args v) (kwargs _)
  have made : JobDefinition.Within p 126 definition := JobDefinition.within_ofJson within read
  exact ⟨made.trigger.mono (by decide), made.requestTemplate.mono (by decide)⟩

-- ---------------------------------------------------------------------------
-- One operation
-- ---------------------------------------------------------------------------

/-- The ledger is right about the jobs that there are after an operation, and an answer that is the
named job is that job as it is kept then. -/
structure Noted (node : Node) (jobs : List Job) (operation : Operation)
    (result : Except Failure Response × Node) : Prop where
  kept : result.2.KeepsJobs (note jobs (operation, result.1))
  name : result.2.name = node.name
  answer : ∀ response, result.1 = .ok response →
    ∀ kind ∈ answersJob, operation.kind? = some kind →
      ∃ id job, operation.jobId? = some id ∧
        (note jobs (operation, result.1)).find? (fun job => job.id = id) = some job ∧
        response = respond job

variable {operation : Operation}

theorem noted_error (h : node.KeepsJobs jobs) (failure : Failure) :
    Noted node jobs operation (.error failure, node) :=
  ⟨h, rfl, fun _ h => nomatch h⟩

theorem Settles.noted {result : Except Failure Job × Node}
    (settles : Settles node jobs id status result) (named : operation.jobId? = some id)
    (notes : ∀ response, note jobs (operation, .ok response) =
      settled operation.jobId? (some status) jobs) :
    Noted node jobs operation (result.1.map respond, result.2) := by
  obtain ⟨answer, kept, name⟩ := settles
  rcases result with ⟨_, after⟩
  dsimp only at answer kept name
  subst answer
  cases hfound : (Store.setStatus id status jobs).find? fun job => job.id = id with
  | none =>
    have absent : ∀ job ∈ jobs, job.id ≠ id := by
      rw [find?_setStatus, Option.map_eq_none_iff] at hfound
      exact fun job hmem => by simpa using List.find?_eq_none.mp hfound job hmem
    rw [setStatus_of_absent absent] at kept
    exact ⟨kept, name, fun _ h => nomatch h⟩
  | some job =>
    have becomes : note jobs (operation, .ok (respond job)) = Store.setStatus id status jobs := by
      rw [notes, named]
      rfl
    refine ⟨?_, name, ?_⟩
    · show Node.KeepsJobs _ (note jobs (operation, .ok (respond job)))
      rw [becomes]
      exact kept
    · rintro response ⟨⟩ - - -
      refine ⟨id, job, named, ?_, rfl⟩
      show (note jobs (operation, .ok (respond job))).find? _ = some job
      rw [becomes, hfound]

theorem noted_read (h : node.KeepsJobs jobs) (kind : operation.kind? = some .jobRead) :
    Noted node jobs operation ((respond <$> (jobId operation >>= read)).run node) := by
  rw [run_map, run_bind, run_jobId]
  cases named : operation.jobId? with
  | none => exact noted_error h _
  | some id =>
    dsimp only
    rw [read, run_bind, run_query, KeepsJobs.job? h id]
    cases hfound : jobs.find? fun job => job.id = id with
    | none => exact noted_error h _
    | some job =>
      have same (response : Response) : note jobs (operation, .ok response) = jobs := by
        simp only [note, kind]
      refine ⟨?_, rfl, ?_⟩
      · show node.KeepsJobs (note jobs (operation, .ok (respond job)))
        rw [same]
        exact h
      · rintro response ⟨⟩ - - -
        refine ⟨id, job, named, ?_, rfl⟩
        show (note jobs (operation, .ok (respond job))).find? _ = some job
        rw [same, hfound]

theorem noted_readAll (h : node.KeepsJobs jobs) (kind : operation.kind? = some .jobReadAll) :
    Noted node jobs operation ((handle .jobReadAll operation).run node) := by
  rw [handle, run_bind, list, run_query]
  cases node.store.jobs (filterOf operation) with
  | error e => exact noted_error h _
  | ok found =>
    refine ⟨?_, rfl, ?_⟩
    · show node.KeepsJobs (note jobs (operation, .ok _))
      simp only [note, kind]
      exact h
    · intro response _ other hmem hkind
      rw [kind] at hkind
      cases hkind
      exact absurd hmem (by decide)

theorem noted_pause (h : node.KeepsJobs jobs) (kind : operation.kind? = some .jobPause) :
    Noted node jobs operation ((respond <$> (jobId operation >>= pause)).run node) := by
  rw [run_map, run_bind, run_jobId]
  cases named : operation.jobId? with
  | none => exact noted_error h _
  | some id =>
    exact (settles_apply h id .paused).noted named fun _ => by simp only [note, kind]

theorem noted_resume (h : node.KeepsJobs jobs) (kind : operation.kind? = some .jobResume) :
    Noted node jobs operation ((respond <$> (jobId operation >>= resume)).run node) := by
  rw [run_map, run_bind, run_jobId]
  cases named : operation.jobId? with
  | none => exact noted_error h _
  | some id =>
    exact (settles_apply h id .running).noted named fun _ => by simp only [note, kind]

theorem exists_getLast?_of_statuses {patch : JobPatch} (h : patch.statuses = .ok statuses) :
    ∃ status, statuses.getLast? = some status := by
  rw [JobPatch.statuses] at h
  split at h
  · cases h
  · rename_i some
    cases statuses with
    | cons first rest => exact ⟨_, List.getLast?_eq_some_getLast (List.cons_ne_nil _ _)⟩
    | nil =>
      cases hops : patch.operations with
      | nil => simp [hops] at some
      | cons instruction more =>
        rw [hops, List.mapM_cons] at h
        obtain ⟨status, -, h⟩ := bind_ok h
        obtain ⟨later, -, h⟩ := bind_ok h
        cases h

theorem noted_update (h : node.KeepsJobs jobs) (kind : operation.kind? = some .jobUpdate) :
    Noted node jobs operation ((handle .jobUpdate operation).run node) := by
  obtain ⟨failure, patched⟩ := run_record (α := JobPatch) "patch" 1 operation node
  rw [handle, run_bind, patched]
  cases hpatch : (operation.record? "patch" 1 : Option JobPatch) with
  | none => exact noted_error h _
  | some patch =>
    dsimp only
    rw [run_bind, run_jobId]
    cases named : operation.jobId? with
    | none => exact noted_error h _
    | some id =>
      dsimp only
      rw [run_map, applyPatch, run_bind, run_ofExcept]
      cases hstatuses : patch.statuses with
      | error e => exact noted_error h _
      | ok statuses =>
        obtain ⟨status, last⟩ := exists_getLast?_of_statuses hstatuses
        have asked : operation.patched? = some status := by
          simp [Operation.patched?, hpatch, hstatuses, Except.toOption, last]
        exact (settles_applyAll h id last).noted named fun _ => by simp only [note, kind, asked]

theorem KeepsJobs.filter (h : node.KeepsJobs jobs) (keep : Job → Bool) {store : Store}
    (kept : store.KeepsJobs (jobs.filter keep)) :
    Node.KeepsJobs { node with store } (jobs.filter keep) where
  scheduler := h.scheduler
  store := kept
  sound job hmem := h.sound job (List.mem_filter.mp hmem).1
  known job hmem := h.known job (List.mem_filter.mp hmem).1
  unique := h.unique.sublist (List.filter_sublist.map _)
  ids := h.ids
  clock := h.clock

theorem noted_delete (h : node.KeepsJobs jobs) (kind : operation.kind? = some .jobDelete) :
    Noted node jobs operation ((handle .jobDelete operation).run node) := by
  rw [handle, run_bind, run_bind, run_jobId]
  cases named : operation.jobId? with
  | none => exact noted_error h _
  | some id =>
    obtain ⟨store, deleted, kept⟩ := h.store.deleteJob id
    have after := KeepsJobs.filter h _ kept
    have same : (delete id).run node = (deleteStored id).run node := by
      simp only [delete, run_bind, run_get, h.scheduler]
    dsimp only
    rw [same, deleteStored, run_bind, run_statement, deleted]
    cases hany : jobs.any fun job => job.id = id with
    | false =>
      have same : (jobs.filter fun job => job.id ≠ id) = jobs := by
        rw [List.filter_eq_self]
        exact fun job hmem => by simpa using List.any_eq_false.mp hany job hmem
      rw [same] at after
      exact ⟨after, rfl, fun _ h => nomatch h⟩
    | true =>
      refine ⟨?_, rfl, ?_⟩
      · show Node.KeepsJobs { node with store } (note jobs (operation, .ok .ack))
        simpa only [note, kind, named, ne_eq, Option.some.injEq] using after
      · intro response _ other hmem hkind
        rw [kind] at hkind
        cases hkind
        exact absurd hmem (by decide)

-- ---------------------------------------------------------------------------
-- New jobs
-- ---------------------------------------------------------------------------

def newJob (node : Node) (definition : JobDefinition) : Job where
  id := node.supply.id node.readings
  name := definition.name
  triggerType := definition.triggerType
  trigger := definition.trigger
  requestTemplate := definition.requestTemplate
  status := .running
  createdAt := node.supply.now (node.readings + 1)

theorem run_store (definition : JobDefinition) (node : Node) :
    (Jobs.store definition).run node =
      match definition.validate with
      | .error e => (.error (.validation e), node)
      | .ok _ =>
        match node.store.insertJob (newJob node definition) with
        | .ok store =>
          (.ok (newJob node definition), { node with store, readings := node.readings + 2 })
        | .error e => (.error (.ofStore e), { node with readings := node.readings + 2 }) := by
  rw [Jobs.store, run_bind, run_ofExcept]
  cases definition.validate with
  | error e => rfl
  | ok _ =>
    simp only [mapError_ok, run_bind, run_fresh, run_change, newJob]
    generalize node.store.insertJob _ = inserted
    cases inserted <;> rfl

theorem KeepsJobs.insert (h : node.KeepsJobs jobs) {job : Job} (within : job.Within IsInteger)
    (fresh : job.id = node.supply.id node.readings) :
    ∃ store, node.store.insertJob job = .ok store ∧ ∀ readings, node.readings < readings →
      Node.KeepsJobs { node with store, readings } (jobs ++ [job]) := by
  have other : ∀ old ∈ jobs, old.id ≠ job.id := by
    intro old hmem same
    obtain ⟨n, earlier, known⟩ := h.known old hmem
    rw [known, fresh] at same
    exact absurd (h.ids same) (Nat.ne_of_lt earlier)
  obtain ⟨store, inserted, kept⟩ := h.store.insertJob other
  refine ⟨store, inserted, fun readings later => ?_⟩
  exact {
    scheduler := h.scheduler
    store := kept
    sound := List.forall_mem_append.mpr ⟨h.sound, by simpa using within⟩
    known := by
      refine List.forall_mem_append.mpr ⟨fun old hmem => ?_, ?_⟩
      · obtain ⟨n, earlier, known⟩ := h.known old hmem
        exact ⟨n, Nat.lt_trans earlier later, known⟩
      · simpa using ⟨node.readings, later, fresh⟩
    unique := by
      rw [List.map_append, List.map_singleton, List.nodup_append]
      refine ⟨h.unique, List.nodup_singleton _, ?_⟩
      simpa using other
    ids := h.ids
    clock := h.clock }

theorem created?_respond {job : Job} (within : job.Within IsInteger)
    (running : job.status = .running)
    (asked : operation.record? "job" 0 =
      some (⟨job.name, job.triggerType, job.trigger, job.requestTemplate⟩ : JobDefinition)) :
    operation.created? (respond job) = some job := by
  have read : (Coded.ofJson (respond job).payload : Except DecodeError Job) = .ok job :=
    (Job.reads (within.weaken fun _ => IsInteger.isFinite)).asValue .value
  simp only [Operation.created?, asked, read, Except.toOption, Option.bind_eq_bind,
    Option.bind_some, ← running]

theorem noted_create (h : node.KeepsJobs jobs) (call : operation.IsJobCall garden)
    (kind : operation.kind? = some .jobCreate) :
    Noted node jobs operation ((handle .jobCreate operation).run node) := by
  obtain ⟨failure, asked⟩ := run_record (α := JobDefinition) "job" 0 operation node
  rw [handle, run_map, run_bind, asked]
  cases hdefinition : (operation.record? "job" 0 : Option JobDefinition) with
  | none => exact noted_error h _
  | some definition =>
    have same : (create definition).run node = (Jobs.store definition).run node := by
      simp only [create, run_bind, run_get, h.scheduler]
    dsimp only
    rw [same, run_store]
    cases definition.validate with
    | error e => exact noted_error h _
    | ok _ =>
      let job := newJob node definition
      have made := within_of_record call.args call.kwargs hdefinition
      have within : job.Within IsInteger := ⟨made.trigger, made.requestTemplate, h.clock _⟩
      obtain ⟨store, inserted, kept⟩ := KeepsJobs.insert h within rfl
      rw [inserted]
      have becomes : note jobs (operation, .ok (respond job)) = jobs ++ [job] := by
        simp only [note, kind, created?_respond within rfl hdefinition, Option.toList_some]
      refine ⟨?_, rfl, ?_⟩
      · show Node.KeepsJobs _ (note jobs (operation, .ok (respond job)))
        rw [becomes]
        exact kept _ (by simp)
      · intro response _ other hmem hkind
        rw [kind] at hkind
        cases hkind
        exact absurd hmem (by decide)

-- ---------------------------------------------------------------------------
-- Any operations
-- ---------------------------------------------------------------------------

theorem noted_handle (h : node.KeepsJobs jobs) (call : operation.IsJobCall garden)
    (kind : operation.kind? = some wanted) (wantsJob : wanted ∈ kinds) :
    Noted node jobs operation ((handle wanted operation).run node) := by
  cases wanted with
  | jobCreate => exact noted_create h call kind
  | jobRead => exact noted_read h kind
  | jobReadAll => exact noted_readAll h kind
  | jobUpdate => exact noted_update h kind
  | jobPause => exact noted_pause h kind
  | jobResume => exact noted_resume h kind
  | jobDelete => exact noted_delete h kind
  | userSync => exact absurd wantsJob (by decide)

theorem noted_route (h : node.KeepsJobs jobs) (call : operation.IsJobCall node.name) :
    Noted node jobs operation ((route operation).run node) := by
  obtain ⟨wanted, wantsJob, kind⟩ := call.kind
  have job : wanted ≠ .userSync := by
    rintro rfl
    exact absurd wantsJob (by decide)
  rw [run_route_here kind job call.here]
  split
  · exact noted_handle h call kind wantsJob
  · exact noted_error h _

theorem keepsJobs_routeAll (h : node.KeepsJobs jobs)
    (calls : ∀ operation ∈ operations, Operation.IsJobCall operation node.name) :
    (node.routeAll operations).2.KeepsJobs ((node.routeAll operations).1.foldl note jobs) ∧
      (node.routeAll operations).2.name = node.name := by
  induction operations generalizing node jobs with
  | nil => exact ⟨h, rfl⟩
  | cons operation rest ih =>
    obtain ⟨call, others⟩ := List.forall_mem_cons.mp calls
    obtain ⟨kept, name, -⟩ := noted_route h call
    obtain ⟨last, same⟩ := ih kept (name ▸ others)
    exact ⟨last, same.trans name⟩

theorem find?_filter_of_ne {other : String} (h : some other ≠ id?) :
    (jobs.filter fun job => some job.id ≠ id?).find? (fun job => job.id = other) =
      jobs.find? fun job => job.id = other := by
  rw [List.find?_filter]
  congr 1
  funext job
  by_cases same : job.id = other
  · simp [same, h]
  · simp [same]

theorem find?_note {other : String} (h : operation.jobId? ≠ some other)
    (found : jobs.find? (fun job => job.id = other) = some job) (answer : Except Failure Response) :
    (note jobs (operation, answer)).find? (fun job => job.id = other) = some job := by
  have settles (status? : Option JobStatus) :
      (settled operation.jobId? status? jobs).find? (fun job => job.id = other) = some job := by
    cases named : operation.jobId? with
    | none => exact found
    | some id =>
      cases status? with
      | none => exact found
      | some status =>
        have ne : other ≠ id := fun same => h (by rw [named, same])
        rw [settled, find?_setStatus_of_ne ne, found]
  cases answer with
  | error failure => exact found
  | ok response =>
    rw [note]
    split
    · rw [List.find?_append, found]
      rfl
    · rw [find?_filter_of_ne (Ne.symm h), found]
    · exact settles _
    · exact settles _
    · exact settles _
    · exact found

/-- Whatever was asked before, the store keeps what the ledger says, each job under its own id. An
operation that answers with a job answers with the one it names, as it is kept afterwards, and no
operation changes a job that it does not name. -/
theorem keeps_ledger (node : Node) (start : node.KeepsJobs []) (operations : List Operation)
    (calls : ∀ operation ∈ operations, operation.IsJobCall node.name) (operation : Operation)
    (call : operation.IsJobCall node.name) :
    let history := (node.routeAll operations).1
    let last := (node.routeAll operations).2
    let answer := ((route operation).run last).1
    let after := ((route operation).run last).2
    last.store.KeepsJobs (ledger history) ∧ ((ledger history).map Job.id).Nodup ∧
      (∀ id, last.store.job? id = .ok ((ledger history).find? fun job => job.id = id)) ∧
      (∀ response, answer = .ok response → ∀ kind ∈ answersJob, operation.kind? = some kind →
        ∃ id job, operation.jobId? = some id ∧ after.store.job? id = .ok (some job) ∧
          response = respond job) ∧
      ∀ other job, operation.jobId? ≠ some other → last.store.job? other = .ok (some job) →
        after.store.job? other = .ok (some job) := by
  obtain ⟨kept, name⟩ := keepsJobs_routeAll start calls
  obtain ⟨keptAfter, -, answers⟩ := noted_route kept (name ▸ call)
  refine ⟨kept.store, kept.unique, KeepsJobs.job? kept, ?_, ?_⟩
  · intro response answer kind hmem hkind
    obtain ⟨id, job, named, found, same⟩ := answers response answer kind hmem hkind
    refine ⟨id, job, named, ?_, same⟩
    rw [KeepsJobs.job? keptAfter id, found]
  · intro other job unnamed found
    rw [KeepsJobs.job? kept other, Except.ok.injEq] at found
    rw [KeepsJobs.job? keptAfter other, find?_note unnamed found]

-- ---------------------------------------------------------------------------
-- One evening
-- ---------------------------------------------------------------------------

def newYear : Instant := ⟨⟨2024, 1, 1⟩, 0, 0, 0, 0⟩

/-- A garden whose clock stands still. Every creation reads two of its ids. -/
def quietNode : Node where
  name := "home"
  handlers := kinds
  supply := {
    id := fun n => String.ofList (List.replicate (n + 1) 'j')
    hash := fun _ text => text
    now := fun _ => newYear }

def creation : Operation :=
  (Operation.ofKind .jobCreate).withKwarg "job"
    (.object [("name", .string "nightly"), ("trigger_type", .string "cron")])

def naming (kind : OperationKind) (id : String) : Operation :=
  (Operation.ofKind kind).withKwarg "job_id" (.string id)

/-- The second job is paused, and so would be the first, had it not been deleted. -/
def evening : List Operation :=
  [creation, naming .jobPause "j", creation, naming .jobDelete "j", naming .jobPause "j",
    naming .jobPause "jjj"]

theorem keepsJobs_quietNode : quietNode.KeepsJobs [] where
  scheduler := rfl
  store := ⟨rfl, rfl⟩
  sound := by simp
  known := by simp
  unique := List.nodup_nil
  ids m n same := by
    have lengths := congrArg (fun id : String => id.toList.length) same
    simpa [quietNode] using lengths
  clock _ := show newYear.Valid from
    ⟨by decide, by decide, by decide, by decide, .inl (by decide)⟩

theorem isJobCall_creation : creation.IsJobCall "home" where
  kind := ⟨.jobCreate, by decide, by decide⟩
  here := by decide
  args := by simp [creation, Operation.ofKind, Operation.withKwarg]
  kwargs := by
    refine List.forall_mem_singleton.mpr ⟨?_, ⟨trivial, trivial, trivial⟩, by decide⟩
    exact Json.sorted_object.mpr ⟨List.pairwise_pair.mpr (by decide), by simp [Json.Sorted]⟩

theorem isJobCall_naming (hkind : kind ∈ kinds) (id : String) :
    (naming kind id).IsJobCall "home" where
  kind := ⟨kind, hkind, OperationKind.ofName?_name kind⟩
  here := rfl
  args := by simp [naming, Operation.ofKind, Operation.withKwarg]
  kwargs := List.forall_mem_singleton.mpr ⟨trivial, trivial, Nat.zero_le _⟩

theorem isJobCall_evening : ∀ operation ∈ evening, operation.IsJobCall "home" := by
  simp only [evening, List.forall_mem_cons]
  exact ⟨isJobCall_creation, isJobCall_naming (by decide) _, isJobCall_creation,
    isJobCall_naming (by decide) _, isJobCall_naming (by decide) _,
    isJobCall_naming (by decide) _, by simp⟩

theorem keeps_ledger_evening :
    let history := (quietNode.routeAll evening).1
    let last := (quietNode.routeAll evening).2
    last.store.KeepsJobs (ledger history) ∧
      (ledger history).map (fun job => (job.id, job.status)) = [("jjj", .paused)] ∧
      last.store.job? "j" = .ok none := by
  obtain ⟨kept, -, found, -, -⟩ := keeps_ledger quietNode keepsJobs_quietNode evening
    isJobCall_evening (naming .jobRead "jjj") (isJobCall_naming (by decide) _)
  have left : (ledger (quietNode.routeAll evening).1).map (fun job => (job.id, job.status)) =
      [("jjj", .paused)] := by decide +kernel
  refine ⟨kept, left, ?_⟩
  rw [found "j", Except.ok.injEq, List.find?_eq_none]
  intro job hmem
  have named : (job.id, job.status) ∈ [("jjj", JobStatus.paused)] :=
    left ▸ List.mem_map_of_mem hmem
  have id : job.id = "jjj" := (Prod.ext_iff.mp (List.mem_singleton.mp named)).1
  simp [id]

end Jobs

end Federation
