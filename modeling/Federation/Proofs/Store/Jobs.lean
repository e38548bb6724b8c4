import Federation.Proofs.Json.Jobs
import Federation.Proofs.Json.Reals
import Federation.Proofs.Store.Users
import Federation.Store.Jobs

/-!
# The jobs of a store

A job is read back from the row that is written for it, but for the numbers that no text brings
back. A store that keeps certain jobs finds each of them under its id, and each statement changes
the list of the jobs as it says.
-/

namespace Federation

open Number (IsFinite ReadsBack)

-- ---------------------------------------------------------------------------
-- Values in columns
-- ---------------------------------------------------------------------------

def Json.reread (v : Json) : Json := v.toDocument.reread.toJson

theorem Document.only_reread {d : Document} : d.Only p → d.reread.Only fun _ => True := by
  induction d using Document.byParts with
  | array items ih =>
    rw [only_array, reread, rereadItems_eq, only_array, List.forall_mem_map]
    exact fun h d hd => ih d hd (h d hd)
  | object members ih =>
    rw [only_object, reread, rereadMembers_eq, only_object, List.forall_mem_map]
    exact fun h m hm => ih m hm (h m hm)
  | unreadable fault => exact False.elim
  | _ => exact fun _ => trivial

theorem Store.document_json {v : Json} (h : v.Within IsFinite Document.maxDepth) :
    Store.document .json v.text = .ok v.reread := by
  have legible := h.numbers.mono fun _ => Number.IsFinite.legible
  have read : Decoder.json.ofText v.text = Decoder.json .text v.toDocument.reread := by
    rw [Decoder.ofText, Json.text, Document.text, String.toList_ofList,
      Document.read_render_legible legible h.depth]
  rw [Store.document, read, Decoder.json_of_only (Document.only_reread h.numbers)]
  rfl

theorem Json.Within.reread_eq {v : Json} (h : v.Within ReadsBack levels) : v.reread = v := by
  rw [reread, Document.reread_eq h.numbers]
  exact toJson_toDocument h.sorted (h.numbers.mono fun _ => ReadsBack.isFinite)

-- ---------------------------------------------------------------------------
-- Rows
-- ---------------------------------------------------------------------------

def Job.reread (job : Job) : Job :=
  { job with trigger := job.trigger.reread, requestTemplate := job.requestTemplate.reread }

theorem Job.Within.reread_eq {job : Job} (h : job.Within ReadsBack) : job.reread = job := by
  rw [reread, h.trigger.reread_eq, h.requestTemplate.reread_eq]

theorem JobRow.toJob_ofJob {job : Job} (h : job.Within IsFinite) :
    (JobRow.ofJob job).toJob = .ok job.reread := by
  simp [ofJob, toJob, Rfc3339.readStored?_writeStored h.createdAt, Store.document_json h.trigger,
    Store.document_json h.requestTemplate, JobStatus.ofName_name, bind, Except.bind, Job.reread]

-- ---------------------------------------------------------------------------
-- Stores that keep certain jobs
-- ---------------------------------------------------------------------------

namespace Store

structure KeepsJobs (store : Store) (jobs : List Job) : Prop where
  isOpen : store.isOpen = true
  rows : store.tables.map Tables.jobs = some (jobs.map JobRow.ofJob)

variable {store : Store} {jobs : List Job}

theorem KeepsJobs.exists_tables (h : store.KeepsJobs jobs) :
    ∃ tables, store = ⟨some tables, true⟩ ∧ tables.jobs = jobs.map JobRow.ofJob := by
  obtain ⟨tables, htables, rows⟩ := Option.map_eq_some_iff.mp h.rows
  obtain ⟨_, _⟩ := store
  have isOpen := h.isOpen
  subst htables isOpen
  exact ⟨tables, rfl, rows⟩

theorem find?_ofJob (jobs : List Job) (id : String) :
    (jobs.map JobRow.ofJob).find? (fun row => row.id = id) =
      (jobs.find? fun job => job.id = id).map JobRow.ofJob := by
  rw [List.find?_map]
  rfl

theorem KeepsJobs.job?_reread (h : store.KeepsJobs jobs)
    (sound : ∀ job ∈ jobs, job.Within IsFinite) (id : String) :
    store.job? id = .ok ((jobs.find? fun job => job.id = id).map Job.reread) := by
  obtain ⟨tables, rfl, rows⟩ := h.exists_tables
  rw [Store.job?, query_open, rows, find?_ofJob]
  cases hfound : jobs.find? fun job => job.id = id with
  | none => rfl
  | some job =>
    have row := JobRow.toJob_ofJob (sound job (List.mem_of_find?_eq_some hfound))
    rw [Option.map_some, Option.mapM_some, row]
    rfl

theorem KeepsJobs.job? (h : store.KeepsJobs jobs) (sound : ∀ job ∈ jobs, job.Within ReadsBack)
    (id : String) : store.job? id = .ok (jobs.find? fun job => job.id = id) := by
  rw [h.job?_reread fun job hmem => (sound job hmem).weaken fun _ => ReadsBack.isFinite]
  cases hfound : jobs.find? fun job => job.id = id with
  | none => rfl
  | some job => rw [Option.map_some, (sound job (List.mem_of_find?_eq_some hfound)).reread_eq]

theorem any_ofJob (jobs : List Job) (id : String) :
    (jobs.map JobRow.ofJob).any (fun row => row.id = id) = jobs.any fun job => job.id = id := by
  rw [List.any_map]
  rfl

theorem KeepsJobs.insertJob (h : store.KeepsJobs jobs) {job : Job}
    (fresh : ∀ other ∈ jobs, other.id ≠ job.id) :
    ∃ after, store.insertJob job = .ok after ∧ after.KeepsJobs (jobs ++ [job]) := by
  obtain ⟨tables, rfl, rows⟩ := h.exists_tables
  have absent : (tables.jobs.any fun row => row.id = job.id) = false := by
    rw [rows, any_ofJob, List.any_eq_false]
    exact fun other hmem => by simpa using fresh other hmem
  refine ⟨⟨some { tables with jobs := tables.jobs ++ [.ofJob job] }, true⟩, ?_, rfl, ?_⟩
  · rw [Store.insertJob, statement_open]
    simp only [absent, Bool.false_eq_true, if_false]
    rfl
  · simp [rows]

def setStatus (id : String) (status : JobStatus) (jobs : List Job) : List Job :=
  jobs.map fun job => if job.id = id then { job with status } else job

theorem map_id_setStatus (id : String) (status : JobStatus) (jobs : List Job) :
    (setStatus id status jobs).map Job.id = jobs.map Job.id := by
  rw [setStatus, List.map_map]
  refine List.map_congr_left fun job _ => ?_
  by_cases same : job.id = id <;> simp [same]

theorem KeepsJobs.setJobStatus (h : store.KeepsJobs jobs) (id : String) (status : JobStatus) :
    ∃ after, store.setJobStatus id status = .ok (jobs.any fun job => job.id = id, after) ∧
      after.KeepsJobs (setStatus id status jobs) := by
  obtain ⟨tables, rfl, rows⟩ := h.exists_tables
  refine ⟨⟨some { tables with jobs := tables.jobs.map fun row =>
    if row.id = id then { row with status := status.name } else row }, true⟩, ?_, rfl, ?_⟩
  · rw [Store.setJobStatus, statement_open, rows, any_ofJob]
    rfl
  · simp only [rows, Option.map_some, List.map_map, setStatus, Option.some.injEq]
    refine List.map_congr_left fun job _ => ?_
    simp only [Function.comp_apply]
    split
    case isTrue same =>
      rw [if_pos (show job.id = id from same)]
      rfl
    case isFalse other => rw [if_neg (show job.id ≠ id from other)]

theorem KeepsJobs.deleteJob (h : store.KeepsJobs jobs) (id : String) :
    ∃ after, store.deleteJob id = .ok (jobs.any fun job => job.id = id, after) ∧
      after.KeepsJobs (jobs.filter fun job => job.id ≠ id) := by
  obtain ⟨tables, rfl, rows⟩ := h.exists_tables
  refine ⟨⟨some { tables with jobs := tables.jobs.filter fun row => row.id ≠ id }, true⟩,
    ?_, rfl, ?_⟩
  · rw [Store.deleteJob, statement_open, rows, any_ofJob]
    rfl
  · simp only [rows, Option.map_some, List.filter_map, Option.some.injEq]
    rfl

end Store

end Federation
