import Federation.JobCalls
import Federation.Proofs.Actions
import Federation.Proofs.Store.Legible
import Federation.Proofs.Store.Listing

/-!
# Calls that come in between

A call that pauses or resumes a job sets the status in one statement and reads the job back in
another one. What it reads is what the calls that took effect in between have left: a job that one
of them resumed is running, though the call was to pause it, and one that was deleted is not found,
though the call did change it.
-/

namespace Federation

-- ---------------------------------------------------------------------------
-- How a job stands
-- ---------------------------------------------------------------------------

theorem JobRow.status_toJob {row : JobRow} {job : Job} {status : JobStatus}
    (h : row.toJob = .ok job) (stored : row.status = status.name) : job.status = status := by
  have set := toJob_withStatus h status
  rw [← stored, h] at set
  exact congrArg Job.status (Except.ok.inj set)

theorem JobRow.toJob_ne_notFound (row : JobRow) (entity id : String) :
    row.toJob ≠ .error (.notFound entity id) := by
  have column {α : Type} (decoder : Decoder α) (text : String) :
      Store.document decoder text ≠ .error (.notFound entity id) := mapError_ne nofun
  intro failed
  unfold toJob at failed
  cases htime : Rfc3339.readStored? row.createdAt with
  | none =>
    rw [htime] at failed
    cases failed
  | some createdAt =>
    rw [htime] at failed
    rcases bind_error failed with failed | ⟨_, -, failed⟩
    · cases failed
    rcases bind_error failed with failed | ⟨_, -, failed⟩
    · exact column _ _ failed
    rcases bind_error failed with failed | ⟨_, -, failed⟩
    · exact column _ _ failed
    rcases bind_error failed with failed | ⟨_, -, failed⟩
    · exact mapError_ne nofun failed
    · cases failed

theorem Failure.ofStore_eq_notFound {e : StoreError} {id : String} :
    Failure.ofStore e = Jobs.notFound id ↔ e = .notFound "Job" id := by
  cases e <;> simp [Failure.ofStore, Jobs.notFound]

namespace Tables

/-- The job has this status in all its rows, or no row at all. -/
def Stands (tables : Tables) (id : String) : Option JobStatus → Prop
  | none => ∀ row ∈ tables.jobs, row.id ≠ id
  | some status => (∃ row ∈ tables.jobs, row.id = id) ∧
      ∀ row ∈ tables.jobs, row.id = id → row.status = status.name

variable {tables : Tables} {id other : String} {standing : Option JobStatus}

theorem stands_withStatus (known : ∃ row ∈ tables.jobs, row.id = id) (status : JobStatus) :
    (tables.withStatus id status).Stands id (some status) := by
  obtain ⟨row, hrow, same⟩ := known
  refine ⟨⟨_, List.mem_map_of_mem hrow, ?_⟩, List.forall_mem_map.mpr fun row _ named => ?_⟩
  · rw [if_pos same]
    exact same
  · split at named
    case isTrue same => rw [if_pos same]
    case isFalse differs => exact absurd named differs

theorem Stands.withStatus (h : tables.Stands id standing) (other : String) (status : JobStatus) :
    (tables.withStatus other status).Stands id
      (if other = id then standing.map fun _ => status else standing) := by
  have named (row : JobRow) :
      (if row.id = other then { row with status := status.name } else row).id = row.id := by
    split <;> rfl
  cases standing with
  | none =>
    rw [Option.map_none, ite_self]
    refine List.forall_mem_map.mpr fun row hrow => ?_
    rw [named]
    exact h row hrow
  | some before =>
    obtain ⟨⟨row, hrow, same⟩, all⟩ := h
    split
    case isTrue here => exact here ▸ stands_withStatus ⟨row, hrow, same.trans here.symm⟩ status
    case isFalse apart =>
      refine ⟨⟨_, List.mem_map_of_mem hrow, (named row).trans same⟩,
        List.forall_mem_map.mpr fun row hrow also => ?_⟩
      rw [named] at also
      rw [if_neg fun changed => apart (changed.symm.trans also)]
      exact all row hrow also

theorem Stands.withoutJob (h : tables.Stands id standing) (other : String) :
    (tables.withoutJob other).Stands id (if other = id then none else standing) := by
  split
  case isTrue here =>
    intro row hrow
    simpa [here] using List.of_mem_filter hrow
  case isFalse apart =>
    cases standing with
    | none => exact fun row hrow => h row (List.mem_of_mem_filter hrow)
    | some status =>
      obtain ⟨⟨row, hrow, same⟩, all⟩ := h
      refine ⟨⟨row, List.mem_filter.mpr ⟨hrow, ?_⟩, same⟩,
        fun row hrow => all row (List.mem_of_mem_filter hrow)⟩
      simpa [same] using Ne.symm apart

end Tables

-- ---------------------------------------------------------------------------
-- What a call does
-- ---------------------------------------------------------------------------

namespace StatusCall

def setting? : StatusCall → Option (String × JobStatus)
  | .pause id => some (id, .paused)
  | .resume id => some (id, .running)
  | .delete _ => none

def carry (tables : Tables) : StatusCall → Tables
  | .pause id => tables.withStatus id .paused
  | .resume id => tables.withStatus id .running
  | .delete id => tables.withoutJob id

def leave (id : String) (standing : Option JobStatus) : StatusCall → Option JobStatus
  | .pause other => if other = id then standing.map fun _ => .paused else standing
  | .resume other => if other = id then standing.map fun _ => .running else standing
  | .delete other => if other = id then none else standing

variable {id : String} {calls : List StatusCall}

theorem stands_carry {tables : Tables} (h : tables.Stands id standing) (call : StatusCall) :
    (call.carry tables).Stands id (call.leave id standing) := by
  cases call with
  | pause other => exact h.withStatus other .paused
  | resume other => exact h.withStatus other .running
  | delete other => exact h.withoutJob other

theorem foldl_leave_none (calls : List StatusCall) (id : String) :
    calls.foldl (leave id) none = none := by
  induction calls with
  | nil => rfl
  | cons call rest ih =>
    have first : leave id none call = none := by cases call <;> simp [leave]
    rw [List.foldl_cons, first, ih]

theorem foldl_leave_eq_none (calls : List StatusCall) (id : String) (status : JobStatus) :
    calls.foldl (leave id) (some status) = none ↔ .delete id ∈ calls := by
  induction calls generalizing status with
  | nil => simp
  | cons call rest ih =>
    rw [List.foldl_cons, List.mem_cons]
    cases call with
    | delete other =>
      by_cases same : other = id
      · simp [leave, same, foldl_leave_none]
      · simp [leave, same, ih, Ne.symm same]
    | pause other =>
      by_cases same : other = id <;> simp [leave, same, ih]
    | resume other =>
      by_cases same : other = id <;> simp [leave, same, ih]

end StatusCall

namespace StatusCallStage

variable {tables : Tables} {call : StatusCall} {stage reached : StatusCallStage} {after : Store}
variable {id : String} {status : JobStatus}

/-- A call changes the tables with its first statement and with no other. -/
theorem store_next? (h : next? ⟨some tables, true⟩ call stage = some (reached, after)) :
    after = ⟨some (match stage with | .asked => call.carry tables | _ => tables), true⟩ := by
  have set (id : String) (status : JobStatus) :
      (ofSetting ⟨some tables, true⟩ id status).2 = ⟨some (tables.withStatus id status), true⟩ := by
    rw [ofSetting, Store.setJobStatus_open]
    cases tables.jobs.any fun row => row.id = id <;> rfl
  have deleted (id : String) :
      (ofDeleting ⟨some tables, true⟩ id).2 = ⟨some (tables.withoutJob id), true⟩ := by
    rw [ofDeleting, Store.deleteJob_open]
    cases tables.jobs.any fun row => row.id = id <;> rfl
  cases stage with
  | asked =>
    cases call with
    | pause id => exact (congrArg Prod.snd (Option.some.inj h)).symm.trans (set id .paused)
    | resume id => exact (congrArg Prod.snd (Option.some.inj h)).symm.trans (set id .running)
    | delete id => exact (congrArg Prod.snd (Option.some.inj h)).symm.trans (deleted id)
  | set => cases call <;> cases h <;> rfl
  | answered result => cases call <;> cases h

theorem next?_asked (sets : call.setting? = some (id, status)) (store : Store) :
    next? store call .asked = some (ofSetting store id status) := by
  cases call <;> cases sets <;> rfl

theorem next?_set (sets : call.setting? = some (id, status)) (store : Store) :
    next? store call .set = some (ofReading store id, store) := by
  cases call <;> cases sets <;> rfl

/-- A status is set where there is a job to set it of; else the call is answered at once, and
nothing has changed. -/
theorem ofSetting_cases (store : Store) (id : String) (status : JobStatus) :
    (∃ failure, ofSetting store id status = (.answered (.error failure), store)) ∨
      ∃ tables, store = ⟨some tables, true⟩ ∧ (∃ row ∈ tables.jobs, row.id = id) ∧
        ofSetting store id status = (.set, ⟨some (tables.withStatus id status), true⟩) := by
  obtain ⟨_ | tables, _ | _⟩ := store
  case some.true =>
    rw [ofSetting, Store.setJobStatus_open]
    cases found : tables.jobs.any fun row => row.id = id with
    | false =>
      rw [Tables.withStatus_of_absent found]
      exact .inl ⟨_, rfl⟩
    | true =>
      obtain ⟨row, hrow, same⟩ := List.any_eq_true.mp found
      exact .inr ⟨tables, rfl, ⟨row, hrow, by simpa using same⟩, rfl⟩
  all_goals exact .inl ⟨_, rfl⟩

theorem ofReading_of_stands (h : tables.Stands id standing) :
    ∃ result, ofReading ⟨some tables, true⟩ id = .answered result ∧
      (result = .error (Jobs.notFound id) ↔ standing = none) ∧
      ∀ answer, result = .ok answer →
        ∃ job, answer = some job ∧ standing = some job.status := by
  rw [ofReading, Store.job, Store.job?, Store.query_open]
  cases standing with
  | none =>
    have absent : (tables.jobs.find? fun row => row.id = id) = none :=
      List.find?_eq_none.mpr fun row hrow => by simpa using h row hrow
    rw [absent]
    exact ⟨.error (Jobs.notFound id), rfl, by simp, by simp⟩
  | some status =>
    obtain ⟨⟨row, hrow, same⟩, all⟩ := h
    have found : (tables.jobs.find? fun row => row.id = id).isSome :=
      List.find?_isSome.mpr ⟨row, hrow, by simpa using same⟩
    obtain ⟨row, hfound⟩ := Option.isSome_iff_exists.mp found
    have named : row.id = id := by simpa using List.find?_some hfound
    have stored := all row (List.mem_of_find?_eq_some hfound) named
    rw [hfound, Option.mapM_some]
    cases read : row.toJob with
    | ok job =>
      have standing := JobRow.status_toJob read stored
      exact ⟨.ok (some job), rfl, by simp, by simp [standing]⟩
    | error e =>
      have other : Failure.ofStore e ≠ Jobs.notFound id := fun same =>
        row.toJob_ne_notFound _ _ (Failure.ofStore_eq_notFound.mp same ▸ read)
      exact ⟨.error (.ofStore e), rfl, by simp [other], by simp⟩

end StatusCallStage

namespace JobCalls

variable {state next after : JobCalls} {turn index : Nat} {turns : List Nat}
variable {id : String} {standing : Option JobStatus}

def begins? (state : JobCalls) (turn : Nat) : Option StatusCall :=
  match state.calls[turn]? with
  | some (call, .asked) => some call
  | _ => none

/-- The calls that have their first statements in the turns, and so take effect in them. -/
def begun (state : JobCalls) : List Nat → List StatusCall
  | [] => []
  | turn :: turns =>
    (state.begins? turn).toList ++ ((state.step turn).map fun next => next.begun turns).getD []

theorem run_cons (state : JobCalls) (turn : Nat) (turns : List Nat) :
    state.run (turn :: turns) = (state.step turn).bind fun next => next.run turns :=
  List.foldlM_cons

theorem run_append (state : JobCalls) (turns more : List Nat) :
    state.run (turns ++ more) = (state.run turns).bind fun next => next.run more :=
  List.foldlM_append

theorem step_cases (h : state.step turn = some next) :
    ∃ call stage reached store, state.calls[turn]? = some (call, stage) ∧
      StatusCallStage.next? state.store call stage = some (reached, store) ∧
      next = ⟨store, state.calls.set turn (call, reached)⟩ := by
  obtain ⟨⟨call, stage⟩, at_turn, h⟩ := Option.bind_eq_some_iff.mp h
  obtain ⟨⟨reached, store⟩, ran, h⟩ := Option.bind_eq_some_iff.mp h
  exact ⟨call, stage, reached, store, at_turn, ran, (Option.some.inj h).symm⟩

theorem stands_step {tables : Tables} (h : state.step turn = some next)
    (opened : state.store = ⟨some tables, true⟩) (stands : tables.Stands id standing) :
    ∃ changed, next.store = ⟨some changed, true⟩ ∧
      changed.Stands id ((state.begins? turn).toList.foldl (StatusCall.leave id) standing) := by
  obtain ⟨call, stage, reached, store, at_turn, ran, rfl⟩ := step_cases h
  rw [opened] at ran
  have changed := StatusCallStage.store_next? ran
  rw [begins?, at_turn]
  cases stage with
  | asked => exact ⟨_, changed, call.stands_carry stands⟩
  | set => exact ⟨_, changed, stands⟩
  | answered result => exact ⟨_, changed, stands⟩

/-- The calls that take effect in a run leave a job as they do one after the other. -/
theorem stands_run {tables : Tables} (ran : state.run turns = some after)
    (opened : state.store = ⟨some tables, true⟩) (stands : tables.Stands id standing) :
    ∃ changed, after.store = ⟨some changed, true⟩ ∧
      changed.Stands id ((state.begun turns).foldl (StatusCall.leave id) standing) := by
  induction turns generalizing state tables standing with
  | nil =>
    cases ran
    exact ⟨tables, opened, stands⟩
  | cons turn rest ih =>
    rw [run_cons] at ran
    obtain ⟨next, first, ran⟩ := Option.bind_eq_some_iff.mp ran
    obtain ⟨changed, opened, stands⟩ := stands_step first opened stands
    rw [begun, first, Option.map_some, Option.getD_some, List.foldl_append]
    exact ih ran opened stands

theorem calls_step (h : state.step turn = some next) (apart : turn ≠ index) :
    next.calls[index]? = state.calls[index]? := by
  obtain ⟨call, stage, reached, store, -, -, rfl⟩ := step_cases h
  exact List.getElem?_set_ne apart

theorem moves_step (h : state.step index = some next)
    (held : state.calls[index]? = some (call, stage)) :
    ∃ reached, StatusCallStage.next? state.store call stage = some (reached, next.store) ∧
      next.calls[index]? = some (call, reached) := by
  obtain ⟨_, _, reached, store, same, moved, rfl⟩ := step_cases h
  cases same.symm.trans held
  exact ⟨reached, moved, List.getElem?_set_self (List.getElem?_eq_some_iff.mp held).1⟩

theorem calls_run (ran : state.run turns = some after) (idle : index ∉ turns) :
    after.calls[index]? = state.calls[index]? := by
  induction turns generalizing state with
  | nil =>
    cases ran
    rfl
  | cons turn rest ih =>
    rw [run_cons] at ran
    obtain ⟨next, first, ran⟩ := Option.bind_eq_some_iff.mp ran
    rw [List.mem_cons, not_or] at idle
    exact (ih ran idle.2).trans (calls_step first (Ne.symm idle.1))

theorem answered_run (ran : state.run turns = some after)
    (answered : state.calls[index]? = some (call, .answered result)) :
    index ∉ turns ∧ after.calls[index]? = some (call, .answered result) := by
  suffices idle : index ∉ turns from ⟨idle, (calls_run ran idle).trans answered⟩
  induction turns generalizing state with
  | nil => exact List.not_mem_nil
  | cons turn rest ih =>
    rw [run_cons] at ran
    obtain ⟨next, first, ran⟩ := Option.bind_eq_some_iff.mp ran
    have apart : turn ≠ index := by
      rintro rfl
      obtain ⟨reached, moved, -⟩ := moves_step first answered
      cases call <;> cases moved
    rw [List.mem_cons, not_or]
    exact ⟨Ne.symm apart, ih ran ((calls_step first apart).trans answered)⟩

theorem exists_turn (ran : state.run turns = some after)
    (held : state.calls[index]? = some (call, stage))
    (moved : after.calls[index]? ≠ some (call, stage)) :
    ∃ earlier before next later reached, turns = earlier ++ index :: later ∧ index ∉ earlier ∧
      state.run earlier = some before ∧ before.step index = some next ∧
      next.run later = some after ∧
      StatusCallStage.next? before.store call stage = some (reached, next.store) ∧
      next.calls[index]? = some (call, reached) := by
  have has : index ∈ turns := by
    by_contra idle
    exact moved ((calls_run ran idle).trans held)
  obtain ⟨earlier, later, rfl, first⟩ := List.eq_append_cons_of_mem has
  rw [run_append] at ran
  obtain ⟨before, early, ran⟩ := Option.bind_eq_some_iff.mp ran
  rw [run_cons] at ran
  obtain ⟨next, step, late⟩ := Option.bind_eq_some_iff.mp ran
  obtain ⟨reached, moved, there⟩ := moves_step step ((calls_run early first).trans held)
  exact ⟨earlier, before, next, later, reached, rfl, first, early, step, late, moved, there⟩

theorem names_run (ran : state.run turns = some after) :
    after.calls.map Prod.fst = state.calls.map Prod.fst := by
  induction turns generalizing state with
  | nil =>
    cases ran
    rfl
  | cons turn rest ih =>
    rw [run_cons] at ran
    obtain ⟨next, first, ran⟩ := Option.bind_eq_some_iff.mp ran
    obtain ⟨call, stage, reached, store, at_turn, -, rfl⟩ := step_cases first
    have named : (state.calls.map Prod.fst)[turn]? = some call := by
      rw [List.getElem?_map, at_turn]
      rfl
    obtain ⟨_, rfl⟩ := List.getElem?_eq_some_iff.mp named
    rw [ih ran, List.map_set, List.set_getElem_self]

theorem asked_of_run {store : Store} {calls : List StatusCall}
    (ran : (start store calls).run turns = some after)
    (found : after.calls[index]? = some (call, stage)) :
    (start store calls).calls[index]? = some (call, .asked) := by
  have named : (after.calls.map Prod.fst)[index]? = some call := by
    rw [List.getElem?_map, found]
    rfl
  have names : (start store calls).calls.map Prod.fst = calls := by
    rw [start, List.map_map]
    exact List.map_id' _
  rw [names_run ran, names] at named
  rw [start, List.getElem?_map, named]
  rfl

inductive Answers (state : JobCalls) (index : Nat) (id : String) (status : JobStatus) :
    List Nat → Except Failure (Option Job) → Prop
  /-- It finds no such job at its first turn, is answered there, and changes nothing. -/
  | refused {before next : JobCalls} {failure : Failure} (fresh : index ∉ earlier)
      (ran : state.run earlier = some before) (stepped : before.step index = some next)
      (unchanged : next.store = before.store) (done : index ∉ later) :
      Answers state index id status (earlier ++ index :: later) (.error failure)
  /-- It sets the status at its first turn, and reads at its second one how the calls that took
  effect in between have left the job. -/
  | read {before next : JobCalls} {tables : Tables} (fresh : index ∉ earlier)
      (ran : state.run earlier = some before)
      (held : before.store = ⟨some tables, true⟩) (known : ∃ row ∈ tables.jobs, row.id = id)
      (stepped : before.step index = some next)
      (changed : next.store = ⟨some (tables.withStatus id status), true⟩)
      (idle : index ∉ between) (done : index ∉ later)
      (lost : result = .error (Jobs.notFound id) ↔ .delete id ∈ next.begun between)
      (found : ∀ answer, result = .ok answer → ∃ job, answer = some job ∧
        (next.begun between).foldl (StatusCall.leave id) (some status) = some job.status) :
      Answers state index id status (earlier ++ index :: (between ++ index :: later)) result

/-- Whatever calls there are and however they take turns, one that pauses or resumes a job answers
for itself only as far as no other one has come between its two statements. -/
theorem run_answers {store : Store} {calls : List StatusCall}
    (ran : (start store calls).run turns = some after)
    (answered : after.calls[index]? = some (call, .answered result))
    (sets : call.setting? = some (id, status)) :
    (start store calls).Answers index id status turns result := by
  obtain ⟨earlier, before, next, rest, reached, rfl, fresh, early, stepped, late, moved, here⟩ :=
    exists_turn ran (asked_of_run ran answered) (by simp [answered])
  rw [StatusCallStage.next?_asked sets] at moved
  rcases StatusCallStage.ofSetting_cases before.store id status with
    ⟨failure, refused⟩ | ⟨tables, held, known, set⟩
  · rw [refused, Option.some.injEq, Prod.mk.injEq] at moved
    obtain ⟨rfl, unchanged⟩ := moved
    obtain ⟨done, last⟩ := answered_run late here
    cases answered.symm.trans last
    exact .refused fresh early stepped unchanged.symm done
  · rw [set, Option.some.injEq, Prod.mk.injEq] at moved
    obtain ⟨rfl, changed⟩ := moved
    obtain ⟨between, middle, final, later, told, rfl, idle, between_ran, -, rest, moved, there⟩ :=
      exists_turn late here (by simp [answered])
    obtain ⟨left, opened, stands⟩ :=
      stands_run between_ran changed.symm (Tables.stands_withStatus known status)
    obtain ⟨result, reads, lost, found⟩ := StatusCallStage.ofReading_of_stands stands
    rw [StatusCallStage.next?_set sets, opened, reads, Option.some.injEq, Prod.mk.injEq] at moved
    obtain ⟨rfl, -⟩ := moved
    obtain ⟨done, last⟩ := answered_run rest there
    cases answered.symm.trans last
    exact .read fresh early held known stepped changed.symm idle done
      (lost.trans (StatusCall.foldl_leave_eq_none _ _ _)) found

def held : Store := ⟨some { jobs := [.ofJob (Store.nightly "b" 0)] }, true⟩

theorem ofReading_held : StatusCallStage.ofReading held "b" =
    .answered (.ok (some (Store.nightly "b" 0).reread)) := by
  have keeps : held.KeepsJobs [Store.nightly "b" 0] := ⟨rfl, rfl⟩
  have sound : ∀ job ∈ [Store.nightly "b" 0], job.Within Number.IsFinite :=
    List.forall_mem_singleton.mpr (Store.listable_nightly (by decide) "b").within
  rw [StatusCallStage.ofReading, Store.job, keeps.job?_reread sound]
  rfl

def contending : List StatusCall := [.pause "b", .resume "b", .delete "b"]

/-- One call is to pause a job, and the answer is that it is running, or that it is not there. -/
theorem run_answers_contending :
    (∃ after job, (start held contending).run [0, 1, 0] = some after ∧
      after.calls[0]? = some (.pause "b", .answered (.ok (some job))) ∧ job.status = .running ∧
      (start held contending).Answers 0 "b" .paused [0, 1, 0] (.ok (some job))) ∧
    ∃ after, (start held contending).run [0, 2, 0] = some after ∧
      after.calls[0]? = some (.pause "b", .answered (.error (Jobs.notFound "b"))) ∧
      (start held contending).Answers 0 "b" .paused [0, 2, 0] (.error (Jobs.notFound "b")) := by
  constructor
  · obtain ⟨after, ran, answered⟩ : ∃ after, (start held contending).run [0, 1, 0] = some after ∧
        after.calls[0]? = some (.pause "b", .ofReading held "b") := ⟨_, rfl, rfl⟩
    rw [ofReading_held] at answered
    exact ⟨after, _, ran, answered, rfl, run_answers ran answered rfl⟩
  · obtain ⟨after, ran, answered⟩ : ∃ after, (start held contending).run [0, 2, 0] = some after ∧
        after.calls[0]? = some (.pause "b", .answered (.error (Jobs.notFound "b"))) :=
      ⟨_, rfl, rfl⟩
    exact ⟨after, ran, answered, run_answers ran answered rfl⟩

end JobCalls

-- ---------------------------------------------------------------------------
-- Calls that nothing comes between
-- ---------------------------------------------------------------------------

/-- What a call does when no other one is under way; a deleted job is not told. -/
def StatusCall.act : StatusCall → Action (Option Job)
  | .pause id => some <$> Jobs.pause id
  | .resume id => some <$> Jobs.resume id
  | .delete id => (fun _ => none) <$> Jobs.delete id

namespace JobCalls

open Federation.Action

theorem run_alone_cons {stage reached : StatusCallStage} {store after : Store}
    (moved : StatusCallStage.next? store call stage = some (reached, after)) (turns : List Nat) :
    run ⟨store, [(call, stage)]⟩ (0 :: turns) = run ⟨after, [(call, reached)]⟩ turns := by
  rw [run_cons]
  simp only [step, List.getElem?_cons_zero, Option.bind_eq_bind, Option.bind_some, moved]
  rfl

theorem run_alone_of_setting {node : Node} {id : String} (sets : call.setting? = some (id, status))
    (acts : call.act.run node = (some <$> Jobs.setStatus id status : Action _).run node) :
    ∃ turns after, (start node.store [call]).run turns = some after ∧
      after.calls = [(call, .answered (call.act.run node).1)] ∧
      (call.act.run node).2 = { node with store := after.store } := by
  have first := StatusCallStage.next?_asked sets node.store
  rw [StatusCallStage.ofSetting] at first
  rw [acts, run_map, Jobs.run_setStatus]
  generalize node.store.setJobStatus id status = ran at first ⊢
  rcases ran with e | ⟨_ | _, store⟩
  · exact ⟨[0], _, run_alone_cons first [], rfl, rfl⟩
  · exact ⟨[0], _, run_alone_cons first [], rfl, rfl⟩
  · have second := StatusCallStage.next?_set sets store
    refine ⟨[0, 0], _, (run_alone_cons first _).trans (run_alone_cons second []), ?_, rfl⟩
    rw [StatusCallStage.ofReading]
    dsimp only
    cases store.job id <;> rfl

/-- With no other call under way, the statements of a call are what the call does. -/
theorem run_alone {node : Node} (scheduler : node.scheduler = .store) (call : StatusCall) :
    ∃ turns after, (start node.store [call]).run turns = some after ∧
      after.calls = [(call, .answered (call.act.run node).1)] ∧
      (call.act.run node).2 = { node with store := after.store } := by
  cases call with
  | pause id =>
    refine run_alone_of_setting rfl ?_
    simp only [StatusCall.act, run_map, Jobs.pause, run_bind, run_get, scheduler]
  | resume id =>
    refine run_alone_of_setting rfl ?_
    simp only [StatusCall.act, run_map, Jobs.resume, run_bind, run_get, scheduler]
  | delete id =>
    have acts : (StatusCall.delete id).act.run node =
        ((fun _ => none) <$> Jobs.deleteStored id : Action (Option Job)).run node := by
      simp only [StatusCall.act, run_map, Jobs.delete, run_bind, run_get, scheduler]
    have only : StatusCallStage.next? node.store (.delete id) .asked =
        some (StatusCallStage.ofDeleting node.store id) := rfl
    rw [StatusCallStage.ofDeleting] at only
    rw [acts, run_map, Jobs.deleteStored, run_bind, run_statement]
    generalize node.store.deleteJob id = ran at only ⊢
    rcases ran with e | ⟨_ | _, store⟩
    all_goals exact ⟨[0], _, run_alone_cons only [], rfl, rfl⟩

end JobCalls

end Federation
