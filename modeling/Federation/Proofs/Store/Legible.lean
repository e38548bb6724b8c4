import Federation.Proofs.Store.Gardens
import Federation.Proofs.Store.Jobs

/-!
# Stores that can be read

Every row that is written for a record can be read. So a store that has only been written to by
statements answers every question about its gardens, its users and its jobs, and a statement on a
job that is not there leaves the store as it is.
-/

namespace Federation

theorem JobRow.toJob_withStatus {row : JobRow} {job : Job} (h : row.toJob = .ok job)
    (status : JobStatus) :
    { row with status := status.name }.toJob = .ok { job with status } := by
  unfold toJob at h ⊢
  cases htime : Rfc3339.readStored? row.createdAt with
  | none =>
    rw [htime] at h
    cases h
  | some createdAt =>
    rw [htime] at h
    obtain ⟨_, same, h⟩ := bind_ok h
    cases same
    obtain ⟨trigger, htrigger, h⟩ := bind_ok h
    obtain ⟨template, htemplate, h⟩ := bind_ok h
    obtain ⟨old, -, h⟩ := bind_ok h
    cases h
    simp only [htrigger, htemplate, JobStatus.ofName_name, mapError_ok]
    rfl

-- ---------------------------------------------------------------------------
-- Tables
-- ---------------------------------------------------------------------------

namespace Tables

structure Legible (tables : Tables) : Prop where
  gardens : ∀ row ∈ tables.gardens, ∃ garden, row.toGarden = .ok garden
  users : ∀ row ∈ tables.users, ∃ user, row.toUser = .ok user
  jobs : ∀ row ∈ tables.jobs, ∃ job, row.toJob = .ok job

def withStatus (tables : Tables) (id : String) (status : JobStatus) : Tables :=
  { tables with jobs := tables.jobs.map fun row =>
      if row.id = id then { row with status := status.name } else row }

def withoutJob (tables : Tables) (id : String) : Tables :=
  { tables with jobs := tables.jobs.filter fun row => row.id ≠ id }

variable {tables : Tables} {id : String}

theorem any_withStatus (tables : Tables) (id : String) (status : JobStatus) :
    ((tables.withStatus id status).jobs.any fun row => row.id = id) =
      tables.jobs.any fun row => row.id = id := by
  rw [withStatus, List.any_map]
  congr 1
  funext row
  by_cases same : row.id = id <;> simp [same]

section Absent

variable (absent : (tables.jobs.any fun row => row.id = id) = false)

include absent

theorem withStatus_of_absent (status : JobStatus) : tables.withStatus id status = tables := by
  have others : ∀ row ∈ tables.jobs, ¬ row.id = id := by
    simpa only [List.any_eq_false, decide_eq_true_eq] using absent
  have same : (tables.jobs.map fun row =>
      if row.id = id then { row with status := status.name } else row) = tables.jobs :=
    (List.map_congr_left fun row hrow => if_neg (others row hrow)).trans (List.map_id' _)
  rw [withStatus, same]

theorem withoutJob_of_absent : tables.withoutJob id = tables := by
  have same : (tables.jobs.filter fun row => row.id ≠ id) = tables.jobs := by
    rw [List.filter_eq_self]
    simpa only [List.any_eq_false, decide_eq_true_eq] using absent
  rw [withoutJob, same]

end Absent

theorem Legible.withStatus (h : tables.Legible) (id : String) (status : JobStatus) :
    (tables.withStatus id status).Legible where
  gardens := h.gardens
  users := h.users
  jobs := by
    refine List.forall_mem_map.mpr fun row hrow => ?_
    obtain ⟨job, hjob⟩ := h.jobs row hrow
    split
    · exact ⟨_, JobRow.toJob_withStatus hjob status⟩
    · exact ⟨job, hjob⟩

theorem Legible.withoutJob (h : tables.Legible) (id : String) : (tables.withoutJob id).Legible where
  gardens := h.gardens
  users := h.users
  jobs row hrow := h.jobs row (List.mem_filter.mp hrow).1

end Tables

-- ---------------------------------------------------------------------------
-- Statements
-- ---------------------------------------------------------------------------

namespace Store

def Legible (store : Store) : Prop :=
  ∃ tables : Tables, store = ⟨some tables, true⟩ ∧ tables.Legible

theorem legible_empty : Legible {} :=
  ⟨{}, rfl, by simp, by simp, by simp⟩

variable {store after : Store}

theorem Legible.statement (h : store.Legible) (ran : store.statement table run = .ok (value, after))
    (keeps : ∀ tables value changed, Tables.Legible tables → run tables = .ok (value, changed) →
      changed.Legible) : after.Legible := by
  obtain ⟨tables, rfl, legible⟩ := h
  obtain ⟨_, changed, same, hrun, rfl⟩ := statement_ok ran
  cases same
  exact ⟨changed, rfl, keeps _ _ _ legible hrun⟩

theorem Legible.putGarden {garden : Garden} (h : store.Legible)
    (stored : store.putGarden garden = .ok after) : after.Legible := by
  obtain ⟨⟨_, _⟩, ran, rfl⟩ := map_ok.mp stored
  refine h.statement ran fun tables _ changed legible hrun => ?_
  cases hrun
  refine ⟨fun row hrow => ?_, legible.users, legible.jobs⟩
  rcases mem_upsertBy hrow with rfl | hrow
  · exact ⟨_, GardenRow.toGarden_ofGarden garden⟩
  · exact legible.gardens row hrow

theorem Legible.putUser {user : User} (h : store.Legible)
    (stored : store.putUser user = .ok after) : after.Legible := by
  obtain ⟨⟨_, _⟩, ran, rfl⟩ := map_ok.mp stored
  refine h.statement ran fun tables _ changed legible hrun => ?_
  cases hrun
  refine ⟨legible.gardens, fun row hrow => ?_, legible.jobs⟩
  rcases mem_upsertBy hrow with rfl | hrow
  · exact ⟨_, UserRow.toUser_ofUser user⟩
  · exact legible.users row hrow

theorem Legible.putShadow {shadow : Shadow} (h : store.Legible)
    (stored : store.putShadow shadow = .ok after) : after.Legible := by
  obtain ⟨⟨_, _⟩, ran, rfl⟩ := map_ok.mp stored
  refine h.statement ran fun tables _ changed legible hrun => ?_
  cases hrun
  exact ⟨legible.gardens, legible.users, legible.jobs⟩

theorem Legible.insertJob {job : Job} (h : store.Legible) (within : job.Within Number.IsFinite)
    (stored : store.insertJob job = .ok after) : after.Legible := by
  obtain ⟨⟨_, _⟩, ran, rfl⟩ := map_ok.mp stored
  refine h.statement ran fun tables _ changed legible hrun => ?_
  split at hrun
  · cases hrun
  · cases hrun
    refine ⟨legible.gardens, legible.users, List.forall_mem_append.mpr ⟨legible.jobs, ?_⟩⟩
    simpa using ⟨_, JobRow.toJob_ofJob within⟩

theorem setJobStatus_open (tables : Tables) (id : String) (status : JobStatus) :
    setJobStatus ⟨some tables, true⟩ id status =
      .ok (tables.jobs.any fun row => row.id = id, ⟨some (tables.withStatus id status), true⟩) :=
  statement_open tables jobsTable _

theorem deleteJob_open (tables : Tables) (id : String) :
    deleteJob ⟨some tables, true⟩ id =
      .ok (tables.jobs.any fun row => row.id = id, ⟨some (tables.withoutJob id), true⟩) :=
  statement_open tables jobsTable _

theorem Legible.setJobStatus {id : String} {status : JobStatus} (h : store.Legible)
    (ran : store.setJobStatus id status = .ok (found, after)) : after.Legible := by
  obtain ⟨tables, rfl, legible⟩ := h
  rw [setJobStatus_open] at ran
  cases ran
  exact ⟨_, rfl, legible.withStatus id status⟩

theorem Legible.deleteJob {id : String} (h : store.Legible)
    (ran : store.deleteJob id = .ok (found, after)) : after.Legible := by
  obtain ⟨tables, rfl, legible⟩ := h
  rw [deleteJob_open] at ran
  cases ran
  exact ⟨_, rfl, legible.withoutJob id⟩

-- ---------------------------------------------------------------------------
-- Questions
-- ---------------------------------------------------------------------------

theorem Legible.exists_users (h : store.Legible) : ∃ users, store.users = .ok users := by
  obtain ⟨tables, rfl, legible⟩ := h
  rw [Store.users, query_open]
  exact exists_mapM.mpr fun row hrow => legible.users row (List.mem_mergeSort.mp hrow)

theorem Legible.exists_remoteGardens (h : store.Legible) :
    ∃ gardens, store.remoteGardens = .ok gardens := by
  obtain ⟨tables, rfl, legible⟩ := h
  rw [Store.remoteGardens, query_open]
  refine exists_mapM.mpr fun row hrow => legible.gardens row ?_
  exact (List.mem_filter.mp (List.mem_mergeSort.mp hrow)).1

theorem exists_job {tables : Tables} {id : String} (h : tables.Legible)
    (known : (tables.jobs.any fun row => row.id = id) = true) :
    ∃ job, Store.job ⟨some tables, true⟩ id = .ok job := by
  have found := List.find?_isSome.mpr (List.any_eq_true.mp known)
  obtain ⟨row, hfound⟩ := Option.isSome_iff_exists.mp found
  obtain ⟨job, hjob⟩ := h.jobs row (List.mem_of_find?_eq_some hfound)
  refine ⟨job, ?_⟩
  rw [Store.job, Store.job?, query_open, hfound, Option.mapM_some, hjob]
  rfl

end Store

end Federation
