import Federation.Connection.PushTask
import Federation.Proofs.Connection.Tasks

/-!
# A session without a push

The task that pushes users compares what it sees with what it saw the time before. When the
connection goes down and comes up again between two looks, both looks find it up and no push begins
for the new session. This is the only way to miss one.

What the task remembers is what its last look found (`wasConnected_iff`). Since the connection came
up for the last time, that decides whether there will be a push (`Since`).
-/

namespace Federation

namespace PushTask

variable {task after : PushTask} {step : PushStep} {steps : List PushStep}

theorem run_cons (task : PushTask) (step : PushStep) (rest : List PushStep) :
    task.run (step :: rest) = (task.step step).bind fun next => next.run rest := List.foldlM_cons

theorem run_append (task : PushTask) (steps more : List PushStep) :
    task.run (steps ++ more) = (task.run steps).bind fun next => next.run more :=
  List.foldlM_append

inductive Moves (task : PushTask) : PushStep → PushTask → Prop
  | set (state : ConnectionState) : Moves task (.set state) (task.set state)
  | look (at_stage : task.stage = .looking) : Moves task .look task.look
  | endPush (at_stage : task.stage = .pushing) : Moves task .endPush { task with stage := .watching }
  | wake (at_stage : task.stage = .watching) (is_set : task.isSet) :
      Moves task .wake { task with stage := .looking }

theorem moves_of_step (h : task.step step = some after) : Moves task step after := by
  cases step with
  | set state =>
    cases h
    exact .set state
  | look =>
    obtain ⟨at_stage, same⟩ := Option.ite_none_right_eq_some.mp h
    cases same
    exact .look at_stage
  | endPush =>
    obtain ⟨at_stage, same⟩ := Option.ite_none_right_eq_some.mp h
    cases same
    exact .endPush at_stage
  | wake =>
    obtain ⟨⟨at_stage, is_set⟩, same⟩ := Option.ite_none_right_eq_some.mp h
    cases same
    exact .wake at_stage is_set

-- ---------------------------------------------------------------------------
-- What the task remembers
-- ---------------------------------------------------------------------------

theorem Moves.wasConnected (moves : Moves task step after) :
    after.wasConnected = if step = .look then task.state == .connected else task.wasConnected := by
  cases moves <;> rfl

theorem wasConnected_kept (ran : task.run steps = some after) (others : .look ∉ steps) :
    after.wasConnected = task.wasConnected := by
  induction steps generalizing task with
  | nil =>
    cases ran
    rfl
  | cons step rest ih =>
    rw [run_cons] at ran
    obtain ⟨next, first, ran⟩ := Option.bind_eq_some_iff.mp ran
    obtain ⟨other, others⟩ := not_or.mp (mt List.mem_cons.mpr others)
    rw [ih ran others, (moves_of_step first).wasConnected, if_neg (Ne.symm other)]

theorem wasConnected_looked (ran : run {} (early ++ .look :: late) = some task)
    (last : .look ∉ late) :
    ∃ found, run {} early = some found ∧ task.wasConnected = (found.state == .connected) := by
  rw [run_append] at ran
  obtain ⟨found, before, ran⟩ := Option.bind_eq_some_iff.mp ran
  rw [run_cons] at ran
  obtain ⟨next, first, ran⟩ := Option.bind_eq_some_iff.mp ran
  exact ⟨found, before, by
    rw [wasConnected_kept ran last, (moves_of_step first).wasConnected, if_pos rfl]⟩

theorem wasConnected_iff (ran : run {} steps = some task) :
    task.wasConnected = true ↔
      ∃ early late found, steps = early ++ .look :: late ∧ .look ∉ late ∧
        run {} early = some found ∧ found.state = .connected := by
  constructor
  · intro remembered
    have looked : .look ∈ steps := Decidable.byContradiction fun never => by
      rw [wasConnected_kept ran never] at remembered
      cases remembered
    obtain ⟨early, late, rfl, last⟩ := exists_last looked
    obtain ⟨found, before, same⟩ := wasConnected_looked ran last
    exact ⟨early, late, found, rfl, last, before, by simpa using same.symm.trans remembered⟩
  · rintro ⟨early, late, found, rfl, last, before, up⟩
    obtain ⟨_, again, same⟩ := wasConnected_looked ran last
    obtain rfl := Option.some.inj (before.symm.trans again)
    simp [same, up]

-- ---------------------------------------------------------------------------
-- Since the connection came up
-- ---------------------------------------------------------------------------

theorem Moves.state (moves : Moves task step after) :
    after.state = match step with
      | .set state => state
      | _ => task.state := by
  cases moves <;> rfl

/-- A connection that is up at the end was up all the time, or came up and stayed up. -/
theorem exists_comesUp (ran : task.run steps = some after) (up : after.state = .connected) :
    (task.state = .connected ∧ ∀ state, .set state ∈ steps → state = .connected) ∨
      ∃ early late down, steps = early ++ .set .connected :: late ∧
        task.run early = some down ∧ down.state ≠ .connected ∧
        ∀ state, .set state ∈ late → state = .connected := by
  induction steps generalizing task with
  | nil =>
    cases ran
    exact .inl ⟨up, fun _ hmem => nomatch hmem⟩
  | cons step rest ih =>
    rw [run_cons] at ran
    obtain ⟨next, first, ran⟩ := Option.bind_eq_some_iff.mp ran
    rcases ih ran with ⟨next_up, stays⟩ | ⟨early, late, down, rfl, before, was_down, stays⟩
    · -- The connection is up from here on; did this step bring it up?
      have state := (moves_of_step first).state
      by_cases was_up : task.state = .connected
      · refine .inl ⟨was_up, fun set_to hmem => ?_⟩
        rcases List.mem_cons.mp hmem with rfl | later
        · exact state.symm.trans next_up
        · exact stays set_to later
      · cases step with
        | set set_to =>
          obtain rfl : set_to = .connected := state.symm.trans next_up
          exact .inr ⟨[], rest, task, rfl, rfl, was_up, stays⟩
        | _ => exact absurd (state.symm.trans next_up) was_up
    · refine .inr ⟨step :: early, late, down, rfl, ?_, was_down, stays⟩
      rw [run_cons, first]
      exact before

/-- The connection is up, and a push has begun or is still to begin, unless the last look before
the connection came up found it up: then neither. -/
structure Since (remembered : Bool) (task : PushTask) : Prop where
  up : task.state = .connected
  missed : remembered = true → task.wasConnected = true ∧ task.hasPushed = false
  ahead : remembered = false → task.hasPushed = false →
    task.wasConnected = false ∧ (task.isSet = true ∨ task.stage = .looking)

theorem since_up (down : task.state ≠ .connected) :
    Since task.wasConnected (task.set .connected) := by
  have comes_up : (task.set .connected).hasPushed = false := by simp [set, down]
  exact ⟨rfl, fun remembered => ⟨remembered, comes_up⟩, fun remembered _ => ⟨remembered, .inl rfl⟩⟩

theorem Since.moves (h : Since remembered task) (moves : Moves task step after)
    (stays : ∀ state, step = .set state → state = .connected) : Since remembered after := by
  obtain ⟨up, missed, ahead⟩ := h
  cases moves with
  | set state =>
    obtain rfl := stays state rfl
    have kept : (task.set .connected).hasPushed = task.hasPushed := by simp [set, up]
    exact ⟨rfl, kept ▸ missed, fun fresh unpushed => ⟨(ahead fresh (kept ▸ unpushed)).1, .inl rfl⟩⟩
  | look at_stage =>
    refine ⟨up, fun remembered => ?_, fun fresh unpushed => ?_⟩
    · obtain ⟨was_up, unpushed⟩ := missed remembered
      simp [PushTask.look, up, was_up, unpushed]
    · simp only [PushTask.look, up, Bool.or_eq_false_iff] at unpushed
      have was_down := (ahead fresh unpushed.1).1
      simp [was_down] at unpushed
  | endPush at_stage =>
    refine ⟨up, missed, fun fresh unpushed => ?_⟩
    obtain ⟨was_down, is_set | looks⟩ := ahead fresh unpushed
    · exact ⟨was_down, .inl is_set⟩
    · cases looks.symm.trans at_stage
  | wake at_stage is_set =>
    exact ⟨up, missed, fun fresh unpushed => ⟨(ahead fresh unpushed).1, .inr rfl⟩⟩

theorem Since.run (h : Since remembered task) (ran : task.run steps = some after)
    (stays : ∀ state, .set state ∈ steps → state = .connected) : Since remembered after := by
  induction steps generalizing task with
  | nil =>
    cases ran
    exact h
  | cons step rest ih =>
    rw [run_cons] at ran
    obtain ⟨next, first, ran⟩ := Option.bind_eq_some_iff.mp ran
    refine ih (h.moves (moves_of_step first) ?_) ran fun state hmem =>
      stays state (List.mem_cons_of_mem _ hmem)
    rintro state rfl
    exact stays state List.mem_cons_self

theorem Since.hasPushed (h : Since remembered task) (idle : task.isIdle) :
    task.hasPushed = !remembered := by
  simp only [isIdle, Bool.and_eq_true, beq_iff_eq, Bool.not_eq_true'] at idle
  cases remembered with
  | true => exact (h.missed rfl).2
  | false =>
    cases pushed : task.hasPushed with
    | true => rfl
    | false =>
      obtain ⟨-, is_set | looks⟩ := h.ahead rfl pushed
      · cases is_set.symm.trans idle.2
      · cases looks.symm.trans idle.1

def Rests (task : PushTask) : Prop :=
  ∃ own after, (∀ state, .set state ∉ own) ∧ task.run own = some after ∧ after.isIdle

theorem Rests.before (h : Rests after) (own : ∀ state, step ≠ .set state)
    (first : task.step step = some after) : Rests task := by
  obtain ⟨rest, last, others, ran, idle⟩ := h
  refine ⟨step :: rest, last, fun state hmem => ?_, by rw [run_cons, first]; exact ran, idle⟩
  rcases List.mem_cons.mp hmem with same | later
  · exact own state same.symm
  · exact others state later

theorem rests_of_looked (h : task.stage = .watching) (unset : task.isSet = false) : Rests task :=
  ⟨[], task, by simp, rfl, by simp [isIdle, h, unset]⟩

theorem stage_look (task : PushTask) :
    task.look.stage = .pushing ∨ task.look.stage = .watching := by
  simp only [look]
  split
  · exact .inl rfl
  · exact .inr rfl

theorem rests_of_looking (h : task.stage = .looking) : Rests task := by
  have looks : task.step .look = some task.look := if_pos h
  refine Rests.before ?_ (by simp) looks
  rcases task.stage_look with pushes | watches
  · have ends : task.look.step .endPush = some { task.look with stage := .watching } :=
      if_pos pushes
    exact (rests_of_looked rfl rfl).before (by simp) ends
  · exact rests_of_looked watches rfl

theorem rests_of_watching (h : task.stage = .watching) : Rests task := by
  cases is_set : task.isSet with
  | false => exact rests_of_looked h is_set
  | true =>
    have wakes : task.step .wake = some { task with stage := .looking } := if_pos ⟨h, is_set⟩
    exact (rests_of_looking rfl).before (by simp) wakes

/-- Left to itself, the task always comes to rest. -/
theorem rests (task : PushTask) : Rests task := by
  cases at_stage : task.stage with
  | looking => exact rests_of_looking at_stage
  | watching => exact rests_of_watching at_stage
  | pushing =>
    have ends : task.step .endPush = some { task with stage := .watching } := if_pos at_stage
    exact (rests_of_watching rfl).before (by simp) ends

/-- When the task is at rest and the connection is up, no push has begun since it came up exactly if
it came up after the last look before had found it up: it had gone down in between unseen. -/
theorem run_unpushed (ran : run {} steps = some task) (idle : task.isIdle)
    (up : task.state = .connected) :
    task.hasPushed = false ↔
      ∃ early unseen late found down,
        steps = early ++ .look :: unseen ++ .set .connected :: late ∧ .look ∉ unseen ∧
        run {} early = some found ∧ found.state = .connected ∧
        run {} (early ++ .look :: unseen) = some down ∧ down.state ≠ .connected ∧
        ∀ state, .set state ∈ late → state = .connected := by
  have pushed_iff {early late : List PushStep} {down : PushTask}
      (split : steps = early ++ .set .connected :: late) (before : run {} early = some down)
      (was_down : down.state ≠ .connected) (stays : ∀ state, .set state ∈ late → state = .connected) :
      task.hasPushed = !down.wasConnected := by
    rw [split, run_append, before] at ran
    exact ((since_up was_down).run ran stays).hasPushed idle
  constructor
  · intro unpushed
    rcases exists_comesUp ran up with ⟨at_start, -⟩ | ⟨early, late, down, rfl, before, was_down, stays⟩
    · cases at_start
    · rw [pushed_iff rfl before was_down stays, Bool.not_eq_false'] at unpushed
      obtain ⟨early, unseen, found, rfl, last, seen, was_up⟩ := (wasConnected_iff before).mp unpushed
      exact ⟨early, unseen, late, found, down, rfl, last, seen, was_up, before, was_down, stays⟩
  · rintro ⟨early, unseen, late, found, down, split, last, seen, was_up, before, was_down, stays⟩
    rw [pushed_iff split before was_down stays,
      (wasConnected_iff before).mpr ⟨early, unseen, found, rfl, last, seen, was_up⟩]
    rfl

def replacedDuringPush : List PushStep :=
  [.set .connected, .look, .set .disconnected, .set .connecting, .set .connected, .endPush, .wake,
    .look]

theorem run_unpushed_replacedDuringPush :
    ∃ task, run {} replacedDuringPush = some task ∧ task.isIdle ∧ task.state = .connected ∧
      task.hasPushed = false := by
  have ran : run {} replacedDuringPush = some ⟨.connected, false, true, .watching, false⟩ := by
    decide
  have missed := (run_unpushed ran (by decide) (by decide)).mpr
    ⟨[.set .connected], [.set .disconnected, .set .connecting], [.endPush, .wake, .look],
      ⟨.connected, true, false, .looking, false⟩, ⟨.connecting, true, true, .pushing, true⟩,
      by decide, by decide, by decide, by decide, by decide, by decide, by simp⟩
  exact ⟨_, ran, by decide, by decide, missed⟩

end PushTask

end Federation
