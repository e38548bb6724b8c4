import Federation.Job
import Federation.Store.Basic
import Federation.Time.Stored

/-!
# Stored jobs

Jobs are kept by id and listed in the order of their creation, then of their ids.
-/

namespace Federation

namespace JobRow

def ofJob (job : Job) : JobRow :=
  { id := job.id
    name := job.name
    triggerType := job.triggerType
    trigger := job.trigger.text
    requestTemplate := job.requestTemplate.text
    status := job.status.name
    createdAt := Rfc3339.writeStored job.createdAt }

def toJob (row : JobRow) : Except StoreError Job := do
  let createdAt ← match Rfc3339.readStored? row.createdAt with
    | some t => .ok t
    | none => .error (Store.undecodable "created_at")
  let trigger ← Store.document .json row.trigger
  let requestTemplate ← Store.document .json row.requestTemplate
  let status ← (JobStatus.ofName row.status).mapError fun e => .invalidDocument e.message
  .ok { id := row.id, name := row.name, triggerType := row.triggerType, trigger,
        requestTemplate, status, createdAt }

/-- Created earlier, or at the same time and with no greater id. -/
def le (a b : JobRow) : Bool :=
  a.createdAt < b.createdAt || (a.createdAt == b.createdAt && a.id ≤ b.id)

end JobRow

/-- Pairs of a field and the value it should have. -/
abbrev JobFilter := List (String × String)

namespace JobFilter

/-- Whether a row satisfies one pair; fields that cannot be filtered by are ignored, and a status may
be spelled in any case. -/
def admits (pair : String × String) (row : JobRow) : Bool :=
  match pair.1 with
  | "id" => row.id == pair.2
  | "name" => row.name == pair.2
  | "trigger_type" => row.triggerType == pair.2
  | "status" =>
    match JobStatus.ofName pair.2 with
    | .ok status => row.status == status.name
    | .error _ => row.status == pair.2
  | _ => true

end JobFilter

namespace Store

def jobsTable : String := "jobs"

def job? (store : Store) (id : String) : Except StoreError (Option Job) :=
  store.query jobsTable fun tables =>
    (tables.jobs.find? fun row => row.id = id).mapM JobRow.toJob

def jobs (store : Store) (filter : JobFilter) : Except StoreError (List Job) :=
  store.query jobsTable fun tables =>
    ((tables.jobs.filter fun row => filter.all fun pair => JobFilter.admits pair row).mergeSort
      JobRow.le).mapM JobRow.toJob

def insertJob (store : Store) (job : Job) : Except StoreError Store :=
  (store.statement jobsTable fun tables =>
    if tables.jobs.any fun row => row.id = job.id then .error (.duplicate "jobs.id" "unknown")
    else .ok ((), { tables with jobs := tables.jobs ++ [.ofJob job] })).map Prod.snd

def setJobStatus (store : Store) (id : String) (status : JobStatus) :
    Except StoreError (Bool × Store) :=
  store.statement jobsTable fun tables =>
    .ok (tables.jobs.any fun row => row.id = id,
      { tables with jobs := tables.jobs.map fun row =>
          if row.id = id then { row with status := status.name } else row })

def job (store : Store) (id : String) : Except StoreError Job := do
  match ← store.job? id with
  | some job => .ok job
  | none => .error (.notFound "Job" id)

/-- Sets the status of a job and reads the job back, in two statements. -/
def updateJobStatus (store : Store) (id : String) (status : JobStatus) :
    Except StoreError Job × Store :=
  match store.setJobStatus id status with
  | .error e => (.error e, store)
  | .ok (false, store) => (.error (.notFound "Job" id), store)
  | .ok (true, store) => (store.job id, store)

def deleteJob (store : Store) (id : String) : Except StoreError (Bool × Store) :=
  store.statement jobsTable fun tables =>
    .ok (tables.jobs.any fun row => row.id = id,
      { tables with jobs := tables.jobs.filter fun row => row.id ≠ id })

end Store

end Federation
