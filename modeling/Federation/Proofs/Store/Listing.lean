import Federation.Proofs.Store.Jobs
import Federation.Proofs.Time.Order

/-!
# Listing jobs

A store that jobs were put into lists those that satisfy all pairs of a filter, in the order of
their creation and then of their ids, each as it is found under its id.
-/

namespace Federation

open Number (IsFinite)
open Rfc3339 (writeStored FourDigits)

-- ---------------------------------------------------------------------------
-- Filters
-- ---------------------------------------------------------------------------

/-- The job has what the pair asks for. Pairs of other fields ask for nothing. -/
structure Job.Meets (job : Job) (pair : String × String) : Prop where
  id : pair.1 = "id" → job.id = pair.2
  name : pair.1 = "name" → job.name = pair.2
  status : pair.1 = "status" → JobStatus.ofName pair.2 = .ok job.status
  triggerType : pair.1 = "trigger_type" → job.triggerType = pair.2

theorem Job.meets_iff {job : Job} {pair : String × String} :
    job.Meets pair ↔ (pair.1 = "id" → job.id = pair.2) ∧ (pair.1 = "name" → job.name = pair.2) ∧
      (pair.1 = "status" → JobStatus.ofName pair.2 = .ok job.status) ∧
      (pair.1 = "trigger_type" → job.triggerType = pair.2) :=
  ⟨fun h => ⟨h.id, h.name, h.status, h.triggerType⟩, fun ⟨id, name, status, triggerType⟩ =>
    ⟨id, name, status, triggerType⟩⟩

theorem JobStatus.name_inj {status other : JobStatus} : status.name = other.name ↔ status = other := by
  cases status <;> cases other <;> decide

theorem JobFilter.admits_ofJob (pair : String × String) (job : Job) :
    admits pair (.ofJob job) = true ↔ job.Meets pair := by
  unfold admits
  split
  case h_1 field => simp [JobRow.ofJob, Job.meets_iff, field]
  case h_2 field => simp [JobRow.ofJob, Job.meets_iff, field]
  case h_3 field => simp [JobRow.ofJob, Job.meets_iff, field]
  case h_4 field =>
    have meets : job.Meets pair ↔ JobStatus.ofName pair.2 = .ok job.status := by
      simp [Job.meets_iff, field]
    rw [meets]
    -- a value that is no status is never the name of one
    cases status : JobStatus.ofName pair.2 with
    | ok wanted => simpa [JobRow.ofJob, JobStatus.name_inj] using eq_comm
    | error e =>
      simp only [JobRow.ofJob, beq_iff_eq, reduceCtorEq, iff_false]
      intro same
      rw [← same, JobStatus.ofName_name] at status
      cases status
  case h_5 noId noName noType noStatus =>
    exact iff_of_true rfl ⟨fun field => (noId field).elim, fun field => (noName field).elim,
      fun field => (noStatus field).elim, fun field => (noType field).elim⟩

-- ---------------------------------------------------------------------------
-- Order
-- ---------------------------------------------------------------------------

def Job.Before (a b : Job) : Prop :=
  a.createdAt.keys < b.createdAt.keys ∨ a.createdAt = b.createdAt ∧ a.id < b.id

namespace JobRow

theorem le_iff {a b : JobRow} :
    a.le b = true ↔ a.createdAt < b.createdAt ∨ a.createdAt = b.createdAt ∧ a.id ≤ b.id := by
  simp [le]

theorem le_trans {a b c : JobRow} (first : a.le b = true) (second : b.le c = true) :
    a.le c = true := by
  rw [le_iff] at first second ⊢
  rcases first with first | ⟨first, firstId⟩ <;> rcases second with second | ⟨second, secondId⟩
  · exact .inl (lt_trans first second)
  · exact .inl (second ▸ first)
  · exact .inl (first ▸ second)
  · exact .inr ⟨first.trans second, String.le_trans firstId secondId⟩

theorem le_total (a b : JobRow) : (a.le b || b.le a) = true := by
  rw [Bool.or_eq_true, le_iff, le_iff]
  rcases lt_trichotomy a.createdAt b.createdAt with earlier | same | later
  · exact .inl (.inl earlier)
  · exact (String.le_total a.id b.id).imp (fun h => .inr ⟨same, h⟩) fun h => .inr ⟨same.symm, h⟩
  · exact .inr (.inl later)

end JobRow

structure Job.Listable (job : Job) : Prop where
  within : job.Within IsFinite
  year : FourDigits job.createdAt

def Job.rowLe (a b : Job) : Bool := (JobRow.ofJob a).le (.ofJob b)

theorem Job.before_of_rowLe {a b : Job} (ha : a.Listable) (hb : b.Listable) (different : a.id ≠ b.id)
    (h : a.rowLe b = true) : a.Before b := by
  have validA := ha.within.createdAt
  have validB := hb.within.createdAt
  rcases JobRow.le_iff.mp h with earlier | ⟨same, id⟩
  · exact .inl ((Rfc3339.writeStored_lt_iff validA validB ha.year hb.year).mp earlier)
  · have back := Rfc3339.readStored?_writeStored validA
    rw [show writeStored a.createdAt = writeStored b.createdAt from same,
      Rfc3339.readStored?_writeStored validB] at back
    exact .inr ⟨(Option.some.inj back).symm, String.not_le.mp fun other =>
      different (String.le_antisymm id other)⟩

-- ---------------------------------------------------------------------------
-- Lists of jobs
-- ---------------------------------------------------------------------------

namespace Store

variable {store : Store} {kept : List Job}

def listed (filter : JobFilter) (kept : List Job) : List Job :=
  (kept.filter fun job => filter.all fun pair => JobFilter.admits pair (.ofJob job)).mergeSort
    Job.rowLe

theorem mem_listed {filter : JobFilter} {job : Job} :
    job ∈ listed filter kept ↔ job ∈ kept ∧ ∀ pair ∈ filter, job.Meets pair := by
  simp [listed, JobFilter.admits_ofJob]

theorem KeepsJobs.jobs (h : store.KeepsJobs kept) (sound : ∀ job ∈ kept, job.Within IsFinite)
    (filter : JobFilter) : store.jobs filter = .ok ((listed filter kept).map Job.reread) := by
  obtain ⟨tables, rfl, rows⟩ := h.exists_tables
  have sorted : ((kept.map JobRow.ofJob).filter fun row => filter.all fun pair =>
      JobFilter.admits pair row).mergeSort JobRow.le = (listed filter kept).map JobRow.ofJob := by
    rw [listed, List.map_mergeSort (r := Job.rowLe) (s := JobRow.le) fun _ _ _ _ => rfl,
      List.filter_map]
    rfl
  rw [Store.jobs, query_open, rows, sorted]
  exact mapM_map_ok fun job hmem => JobRow.toJob_ofJob (sound job (mem_listed.mp hmem).1)

theorem nodup_listed (unique : (kept.map Job.id).Nodup) (filter : JobFilter) :
    ((listed filter kept).map Job.id).Nodup := by
  rw [listed, ((List.mergeSort_perm _ _).map Job.id).nodup_iff]
  exact unique.sublist (List.filter_sublist.map _)

theorem pairwise_listed (unique : (kept.map Job.id).Nodup) (sound : ∀ job ∈ kept, job.Listable)
    (filter : JobFilter) : (listed filter kept).Pairwise Job.Before := by
  have sorted : (listed filter kept).Pairwise fun a b => a.rowLe b = true := by
    rw [listed]
    apply List.pairwise_mergeSort
    · exact fun a b c => JobRow.le_trans
    · exact fun a b => JobRow.le_total _ _
  refine (sorted.and (List.pairwise_map.mp (nodup_listed unique filter))).imp_of_mem ?_
  rintro a b ha hb ⟨le, different⟩
  exact Job.before_of_rowLe (sound a (mem_listed.mp ha).1) (sound b (mem_listed.mp hb).1) different le

/-- A filter only counts by the pairs in it, not by their order or number. -/
theorem listed_congr {filter other : JobFilter} (h : ∀ pair, pair ∈ other ↔ pair ∈ filter)
    (kept : List Job) : listed other kept = listed filter kept := by
  have same (job : Job) : (other.all fun pair => JobFilter.admits pair (.ofJob job)) =
      filter.all fun pair => JobFilter.admits pair (.ofJob job) := by
    rw [Bool.eq_iff_iff, List.all_eq_true, List.all_eq_true]
    simp only [h]
  rw [listed, listed, funext same]

-- ---------------------------------------------------------------------------
-- Stores that are filled
-- ---------------------------------------------------------------------------

inductive Filling where
  | insert (job : Job)
  | update (id : String) (status : JobStatus)

def fill (store : Store) : Filling → Store
  | .insert job =>
    match store.insertJob job with
    | .ok after => after
    | .error _ => store
  | .update id status => (store.updateJobStatus id status).2

def filled (store : Store) (fillings : List Filling) : Store := fillings.foldl fill store

/-- What the filling makes of the jobs that are kept. A job comes too late for an id that is taken. -/
def keep (kept : List Job) : Filling → List Job
  | .insert job => if kept.any fun other => other.id = job.id then kept else kept ++ [job]
  | .update id status => setStatus id status kept

def keptAfter (fillings : List Filling) : List Job := fillings.foldl keep []

structure KeepsListable (store : Store) (kept : List Job) : Prop where
  keeps : store.KeepsJobs kept
  unique : (kept.map Job.id).Nodup
  sound : ∀ job ∈ kept, job.Listable

theorem KeepsJobs.insertJob_duplicate (h : store.KeepsJobs kept) {job other : Job}
    (hmem : other ∈ kept) (same : other.id = job.id) : ∃ e, store.insertJob job = .error e := by
  obtain ⟨tables, rfl, rows⟩ := h.exists_tables
  have present : (tables.jobs.any fun row => row.id = job.id) = true := by
    rw [rows, any_ofJob, List.any_eq_true]
    exact ⟨other, hmem, by simpa using same⟩
  rw [Store.insertJob, statement_open]
  simp only [present, if_true]
  exact ⟨_, rfl⟩

theorem KeepsJobs.updateJobStatus (h : store.KeepsJobs kept) (id : String) (status : JobStatus) :
    (store.updateJobStatus id status).2.KeepsJobs (setStatus id status kept) := by
  obtain ⟨after, done, keeps⟩ := h.setJobStatus id status
  rw [Store.updateJobStatus, done]
  cases kept.any fun job => job.id = id <;> exact keeps

theorem listable_setStatus {id : String} {status : JobStatus} (h : ∀ job ∈ kept, job.Listable) :
    ∀ job ∈ setStatus id status kept, job.Listable := by
  rw [setStatus, List.forall_mem_map]
  intro job hmem
  obtain ⟨⟨trigger, requestTemplate, createdAt⟩, year⟩ := h job hmem
  split
  · exact ⟨⟨trigger, requestTemplate, createdAt⟩, year⟩
  · exact ⟨⟨trigger, requestTemplate, createdAt⟩, year⟩

theorem KeepsListable.fill (h : store.KeepsListable kept) (filling : Filling)
    (sound : ∀ job, filling = .insert job → job.Listable) :
    (store.fill filling).KeepsListable (keep kept filling) := by
  cases filling with
  | update id status =>
    exact ⟨h.keeps.updateJobStatus id status, (map_id_setStatus id status kept).symm ▸ h.unique,
      listable_setStatus h.sound⟩
  | insert job =>
    rw [keep]
    split
    case isTrue taken =>
      obtain ⟨other, hmem, same⟩ := List.any_eq_true.mp taken
      obtain ⟨e, failed⟩ := h.keeps.insertJob_duplicate hmem (of_decide_eq_true same)
      rw [Store.fill, failed]
      exact h
    case isFalse free =>
      have fresh : ∀ other ∈ kept, other.id ≠ job.id := by simpa using free
      obtain ⟨after, done, keeps⟩ := h.keeps.insertJob fresh
      rw [Store.fill, done]
      refine ⟨keeps, ?_, ?_⟩
      · rw [List.map_append, List.map_singleton, List.nodup_append_comm]
        exact List.nodup_cons.mpr ⟨by simpa using fresh, h.unique⟩
      · exact List.forall_mem_append.mpr ⟨h.sound, List.forall_mem_singleton.mpr (sound job rfl)⟩

theorem KeepsListable.filled (h : store.KeepsListable kept) {fillings : List Filling}
    (sound : ∀ job, .insert job ∈ fillings → job.Listable) :
    (store.filled fillings).KeepsListable (fillings.foldl keep kept) := by
  induction fillings generalizing store kept with
  | nil => exact h
  | cons filling rest ih =>
    have next := h.fill filling fun job same => sound job (same ▸ List.mem_cons_self)
    exact ih next fun job hmem => sound job (List.mem_cons_of_mem _ hmem)

theorem KeepsListable.job?_iff (h : store.KeepsListable kept) {job : Job} :
    store.job? job.id = .ok (some job) ↔ ∃ row ∈ kept, row.reread = job := by
  rw [h.keeps.job?_reread fun job hmem => (h.sound job hmem).within, Except.ok.injEq,
    Option.map_eq_some_iff]
  constructor
  · rintro ⟨row, found, same⟩
    exact ⟨row, List.mem_of_find?_eq_some found, same⟩
  · rintro ⟨row, hmem, rfl⟩
    exact ⟨row, find?_key h.unique hmem, rfl⟩

theorem Job.meets_reread {job : Job} {pair : String × String} :
    job.reread.Meets pair ↔ job.Meets pair := by
  rw [Job.meets_iff, Job.meets_iff]
  rfl

/-- Whatever a store was filled with, it lists the jobs that satisfy all pairs of the filter: each
once, as it is found under its id, in the order of creation and then of the ids. What is there to be
found are the jobs that came in time, with the statuses that were set since. -/
theorem jobs_filled (start : store.KeepsJobs []) (fillings : List Filling)
    (sound : ∀ job, .insert job ∈ fillings → job.Listable) (filter : JobFilter) :
    ∃ found, (store.filled fillings).jobs filter = .ok found ∧
      (∀ job, job ∈ found ↔ (store.filled fillings).job? job.id = .ok (some job) ∧
        ∀ pair ∈ filter, job.Meets pair) ∧
      (∀ job : Job, (store.filled fillings).job? job.id = .ok (some job) ↔
        ∃ row ∈ keptAfter fillings, row.reread = job) ∧
      (found.map Job.id).Nodup ∧ found.Pairwise Job.Before ∧
      ∀ other : JobFilter, (∀ pair, pair ∈ other ↔ pair ∈ filter) →
        (store.filled fillings).jobs other = .ok found := by
  have empty : store.KeepsListable [] := ⟨start, List.nodup_nil, fun job hmem => nomatch hmem⟩
  have h : (store.filled fillings).KeepsListable (keptAfter fillings) := empty.filled sound
  have within : ∀ job ∈ keptAfter fillings, job.Within IsFinite :=
    fun job hmem => (h.sound job hmem).within
  refine ⟨_, h.keeps.jobs within filter, fun job => ?_, fun job => h.job?_iff, ?_, ?_,
    fun other same => ?_⟩
  · rw [List.mem_map, h.job?_iff]
    constructor
    · rintro ⟨row, hmem, rfl⟩
      obtain ⟨hmem, asked⟩ := mem_listed.mp hmem
      exact ⟨⟨row, hmem, rfl⟩, fun pair hpair => Job.meets_reread.mpr (asked pair hpair)⟩
    · rintro ⟨⟨row, hmem, rfl⟩, asked⟩
      exact ⟨row, mem_listed.mpr ⟨hmem, fun pair hpair => Job.meets_reread.mp (asked pair hpair)⟩,
        rfl⟩
  · rw [List.map_map]
    exact nodup_listed h.unique filter
  · rw [List.pairwise_map]
    exact pairwise_listed h.unique h.sound filter
  · rw [h.keeps.jobs within, listed_congr same]

-- ---------------------------------------------------------------------------
-- Two jobs of one second
-- ---------------------------------------------------------------------------

def nightly (id : String) (nanos : Nat) : Job where
  id := id
  name := "nightly"
  triggerType := "cron"
  trigger := .null
  requestTemplate := .null
  status := .running
  createdAt := ⟨⟨2024, 1, 1⟩, 0, 0, 0, nanos⟩

theorem listable_nightly {nanos : Nat} (h : nanos < 1000000000) (id : String) :
    (nightly id nanos).Listable where
  within := by
    have null : Json.null.Within IsFinite Document.maxDepth :=
      ⟨by simp [Json.Sorted], by simp [Json.toDocument, Document.Only], by decide⟩
    have date : (⟨2024, 1, 1⟩ : CivilDate).Valid := by decide
    exact ⟨null, null, ⟨date, by simp [nightly], by simp [nightly], by simp [nightly], .inl h⟩⟩
  year := by simp [nightly, FourDigits]

/-- The last one comes too late for its id. -/
def twoJobs : List Filling :=
  [.insert (nightly "b" 500000000), .insert (nightly "a" 0), .update "b" .paused,
    .insert (nightly "b" 1)]

def pausedJob : Job := { nightly "b" 500000000 with status := .paused }

theorem jobs_filled_twoJobs : KeepsJobs {} [] ∧
    (∀ job, .insert job ∈ twoJobs → job.Listable) ∧
    (filled {} twoJobs).jobs [("status", "Paused"), ("color", "red")] = .ok [pausedJob.reread] ∧
    ∃ found, (filled {} twoJobs).jobs [] = .ok found ∧ found.Pairwise Job.Before ∧
      (nightly "a" 0).reread ∈ found ∧ pausedJob.reread ∈ found := by
  have sound : ∀ job, .insert job ∈ twoJobs → job.Listable := by
    intro job hmem
    simp only [twoJobs, List.mem_cons, Filling.insert.injEq, reduceCtorEq, List.not_mem_nil,
      false_or, or_false] at hmem
    rcases hmem with rfl | rfl | rfl <;> exact listable_nightly (by decide) _
  have start : KeepsJobs {} [] := ⟨rfl, rfl⟩
  have kept : keptAfter twoJobs = [pausedJob, nightly "a" 0] := rfl
  refine ⟨start, sound, ?_, ?_⟩
  · obtain ⟨found, listed, members, stored, unique, -⟩ :=
      jobs_filled start twoJobs sound [("status", "Paused"), ("color", "red")]
    have only (job : Job) : job ∈ found ↔ job = pausedJob.reread := by
      rw [members, stored, kept]
      constructor
      · rintro ⟨⟨row, hmem, rfl⟩, asked⟩
        rcases List.mem_pair.mp hmem with rfl | rfl
        · rfl
        · cases (asked _ List.mem_cons_self).status rfl
      · rintro rfl
        refine ⟨⟨_, List.mem_cons_self, rfl⟩, fun pair hpair => Job.meets_reread.mpr ?_⟩
        rcases List.mem_pair.mp hpair with rfl | rfl
        · exact Job.meets_iff.mpr ⟨by decide, by decide, fun _ => rfl, by decide⟩
        · simp [Job.meets_iff]
    have same := (List.perm_ext_iff_of_nodup unique.of_map (List.nodup_singleton _)).mpr fun job =>
      (only job).trans List.mem_singleton.symm
    rw [listed, List.perm_singleton.mp same]
  · obtain ⟨found, listed, members, stored, -, sorted, -⟩ := jobs_filled start twoJobs sound []
    have all {row : Job} (hmem : row ∈ keptAfter twoJobs) : row.reread ∈ found :=
      (members _).mpr ⟨(stored _).mpr ⟨row, hmem, rfl⟩, by simp⟩
    rw [kept] at all
    exact ⟨found, listed, sorted, all (by simp), all (by simp)⟩

end Store

end Federation
