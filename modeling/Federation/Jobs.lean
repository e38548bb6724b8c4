import Federation.Node
import Federation.Validation

/-!
# Job control

Jobs are created, read, listed, paused, resumed, deleted and patched. A definition and a patch are
checked as a whole before anything is done; the instructions of a patch are then carried out in
order, up to the first that fails.
-/

namespace Federation.Jobs

open Federation.Action

def notFound (id : String) : Failure := .notFound "Job" id

/-- Sets a status in the store and reads the job back; these are two statements. -/
def setStatus (id : String) (status : JobStatus) : Action Job := do
  let found ← statement fun store => store.setJobStatus id status
  if found then query fun store => store.job id else throw (notFound id)

theorem run_setStatus (id : String) (status : JobStatus) (node : Node) :
    (setStatus id status).run node =
      match node.store.setJobStatus id status with
      | .error e => (.error (.ofStore e), node)
      | .ok (false, store) => (.error (notFound id), { node with store })
      | .ok (true, store) => ((store.job id).mapError .ofStore, { node with store }) := by
  rw [setStatus, run_bind, run_statement]
  rcases node.store.setJobStatus id status with e | ⟨_ | _, store⟩
  · rfl
  · rfl
  · simp only [if_true, run_query]
    rcases store.job id with e | job <;> rfl

/-- Stores a new running job under a fresh id. -/
def store (definition : JobDefinition) : Action Job := do
  ofExcept definition.validate
  let id ← fresh Supply.id
  let now ← fresh Supply.now
  let job : Job := {
    id, name := definition.name, triggerType := definition.triggerType
    trigger := definition.trigger, requestTemplate := definition.requestTemplate
    status := .running, createdAt := now }
  change fun store => store.insertJob job
  pure job

def deleteStored (id : String) : Action Unit := do
  let found ← statement fun store => store.deleteJob id
  if !found then throw (notFound id)

def ask (answer : History → SchedulerCall → Except Failure Job) (call : SchedulerCall) :
    Action Job := do
  let history := (← get).effects
  emit (.schedule call)
  match answer history call with
  | .ok job => pure job
  | .error failure => throw failure

def create (definition : JobDefinition) : Action Job := do
  match (← get).scheduler with
  | .store => store definition
  | .external answer => ask answer (.create definition)

def pause (id : String) : Action Job := do
  match (← get).scheduler with
  | .store => setStatus id .paused
  | .external answer => ask answer (.pause id)

def resume (id : String) : Action Job := do
  match (← get).scheduler with
  | .store => setStatus id .running
  | .external answer => ask answer (.resume id)

def delete (id : String) : Action Unit := do
  match (← get).scheduler with
  | .store => deleteStored id
  | .external answer => discard (ask answer (.remove id))

def read (id : String) : Action Job := do
  match ← query fun store => store.job? id with
  | some job => pure job
  | none => throw (notFound id)

def list (filter : JobFilter) : Action (List Job) := query fun store => store.jobs filter

def apply (id : String) : JobStatus → Action Job
  | .paused => pause id
  | .running => resume id

/-- Carries out statuses in order and answers with the job as the last one left it. -/
def applyAll (id : String) : List JobStatus → Action Job
  | [] => refuse (.required "operations")
  | [status] => apply id status
  | status :: rest => do
    discard (apply id status)
    applyAll id rest

def applyPatch (id : String) (patch : JobPatch) : Action Job := do
  applyAll id (← ofExcept patch.statuses)

/-! Operations on jobs -/

def jobId (operation : Operation) : Action String :=
  match (operation.stringParam? "job_id").filter (· ≠ "") with
  | some id => pure id
  | none => refuse (.required "job_id")

/-- The named argument, or else the positional one, as a record. -/
def record [Coded α] (key : String) (position : Nat) (operation : Operation) : Action α :=
  match (operation.kwarg? key).orElse fun _ => operation.args[position]? with
  | none => refuse (.required key)
  | some value =>
    match Coded.ofJson value with
    | .ok record => pure record
    | .error e => refuse (.invalidFormat key e.message)

/-- The filter an operation asks for; values other than texts count as their JSON text. -/
def filterOf (operation : Operation) : JobFilter :=
  (((operation.kwarg? "filter_params").bind Json.object?).getD []).map fun (field, value) =>
    (field, value.string?.getD value.text)

def respond (job : Job) : Response := ⟨ModelClass.job, job.toDocument.toJson⟩

def handle (kind : OperationKind) (operation : Operation) : Action Response := do
  match kind with
  | .jobCreate => respond <$> (record "job" 0 operation >>= create)
  | .jobRead => respond <$> (jobId operation >>= read)
  | .jobReadAll =>
    let jobs ← list (filterOf operation)
    pure ⟨ModelClass.job, .array (jobs.map fun job => job.toDocument.toJson)⟩
  | .jobUpdate =>
    let patch ← record "patch" 1 operation
    let id ← jobId operation
    respond <$> applyPatch id patch
  | .jobPause => respond <$> (jobId operation >>= pause)
  | .jobResume => respond <$> (jobId operation >>= resume)
  | .jobDelete =>
    jobId operation >>= delete
    pure .ack
  | .userSync => throw (.routing (kind.name ++ " is not a job operation"))

def kinds : List OperationKind :=
  [.jobCreate, .jobRead, .jobReadAll, .jobUpdate, .jobPause, .jobResume, .jobDelete]

end Federation.Jobs
