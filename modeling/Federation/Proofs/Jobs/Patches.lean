import Federation.Proofs.Actions
import Federation.Proofs.Store.Reading

/-!
# Patches as a whole and in part

A patch is refused as a whole, for the first instruction that asks for no status, before anything is
done. A patch that passes is carried out one call after the other, and what a call comes to decides
whether there is a next one.
-/

namespace Federation

-- ---------------------------------------------------------------------------
-- What an instruction asks for
-- ---------------------------------------------------------------------------

theorem JobStatus.ofName_ok {text : String} {status : JobStatus} :
    ofName text = .ok status ↔ Text.upper text = status.name := by
  unfold ofName names
  generalize Text.upper text = upper
  by_cases running : upper = "RUNNING"
  · subst running
    cases status <;> simp [name]
  · by_cases paused : upper = "PAUSED"
    · subst paused
      cases status <;> simp [List.lookup_cons, name]
    · have unknown : [("RUNNING", JobStatus.running), ("PAUSED", .paused)].lookup upper = none := by
        simp [List.lookup_cons, beq_false_of_ne running, beq_false_of_ne paused]
      rw [unknown]
      cases status <;> simp [name, running, paused]

theorem JobStatus.ofName_error {text : String} {e : ValidationError} :
    ofName text = .error e ↔
      e = .unsupportedStatus text ∧ ∀ status : JobStatus, Text.upper text ≠ status.name := by
  simp only [ne_eq, ← ofName_ok]
  unfold ofName
  cases names.lookup (Text.upper text) with
  | some status => simp
  | none => simp [eq_comm]

namespace PatchInstruction

/-- The instruction updates the status, to a text that names this one in any case. -/
def Asks (instruction : PatchInstruction) (status : JobStatus) : Prop :=
  instruction.operation = "update" ∧ instruction.path = "/status" ∧
    ∃ text, instruction.value = .string text ∧ Text.upper text = status.name

inductive Refused (instruction : PatchInstruction) : ValidationError → Prop
  | operation (other : instruction.operation ≠ "update") :
      Refused instruction (.unsupportedOperation instruction.operation)
  | path (update : instruction.operation = "update") (other : instruction.path ≠ "/status") :
      Refused instruction (.unsupportedPath instruction.path)
  | text {text : String} (update : instruction.operation = "update")
      (status : instruction.path = "/status") (value : instruction.value = .string text)
      (unknown : ∀ status : JobStatus, Text.upper text ≠ status.name) :
      Refused instruction (.unsupportedStatus text)
  | value (update : instruction.operation = "update") (status : instruction.path = "/status")
      (noText : ∀ text, instruction.value ≠ .string text) :
      Refused instruction (.unsupportedStatus instruction.value.text)

variable {instruction : PatchInstruction}

theorem status_ok {status : JobStatus} :
    instruction.status = .ok status ↔ instruction.Asks status := by
  obtain ⟨operation, path, value⟩ := instruction
  by_cases update : operation = "update"
  · by_cases onStatus : path = "/status"
    · cases value <;> simp [PatchInstruction.status, Asks, update, onStatus, JobStatus.ofName_ok]
    · simp [PatchInstruction.status, Asks, update, onStatus]
  · simp [PatchInstruction.status, Asks, update]

theorem status_error {e : ValidationError} :
    instruction.status = .error e ↔ instruction.Refused e := by
  obtain ⟨operation, path, value⟩ := instruction
  constructor
  · intro h
    by_cases update : operation = "update"
    · by_cases onStatus : path = "/status"
      · cases value with
        | string text =>
          obtain ⟨rfl, unknown⟩ := JobStatus.ofName_error.mp
            (by simpa [PatchInstruction.status, update, onStatus] using h)
          exact .text update onStatus rfl unknown
        | _ =>
          simp only [PatchInstruction.status, update, onStatus, ne_eq, not_true, if_false,
            Except.error.injEq] at h
          exact h ▸ .value update onStatus nofun
      · simp only [PatchInstruction.status, update, ne_eq, not_true, if_false, onStatus, not_false_iff,
          if_true, Except.error.injEq] at h
        exact h ▸ .path update onStatus
    · simp only [PatchInstruction.status, ne_eq, update, not_false_iff, if_true,
        Except.error.injEq] at h
      exact h ▸ .operation update
  · intro h
    cases h with
    | operation other => simp [PatchInstruction.status, show operation ≠ "update" from other]
    | path update other =>
      simp [PatchInstruction.status, show operation = "update" from update,
        show path ≠ "/status" from other]
    | text update onStatus text unknown =>
      cases show value = _ from text
      simpa [PatchInstruction.status, show operation = "update" from update,
        show path = "/status" from onStatus] using JobStatus.ofName_error.mpr ⟨rfl, unknown⟩
    | value update onStatus noText =>
      cases value with
      | string text => exact absurd rfl (noText text)
      | _ => simp [PatchInstruction.status, show operation = "update" from update,
          show path = "/status" from onStatus]

end PatchInstruction

-- ---------------------------------------------------------------------------
-- What a patch asks for
-- ---------------------------------------------------------------------------

namespace JobPatch

def Asks (patch : JobPatch) (statuses : List JobStatus) : Prop :=
  patch.operations ≠ [] ∧ List.Forall₂ PatchInstruction.Asks patch.operations statuses

inductive Refused (patch : JobPatch) : ValidationError → Prop
  | empty (none : patch.operations = []) : Refused patch (.required "operations")
  | instruction {before after : List PatchInstruction} {refused : PatchInstruction}
      {e : ValidationError} (first : patch.operations = before ++ refused :: after)
      (accepted : ∀ instruction ∈ before, ∃ status, instruction.Asks status)
      (why : refused.Refused e) : Refused patch e

variable {patch : JobPatch}

theorem statuses_ok {statuses : List JobStatus} :
    patch.statuses = .ok statuses ↔ patch.Asks statuses := by
  rw [JobPatch.statuses, Asks]
  by_cases none : patch.operations = []
  · simp [none]
  · rw [if_neg (by simpa using none), mapM_ok]
    simp only [PatchInstruction.status_ok, ne_eq, none, not_false_iff, true_and]

theorem statuses_error {e : ValidationError} : patch.statuses = .error e ↔ patch.Refused e := by
  rw [JobPatch.statuses]
  by_cases none : patch.operations = []
  · rw [if_pos (by simpa using none)]
    constructor
    · intro h
      cases h
      exact .empty none
    · rintro (_ | ⟨first, -, -⟩)
      · rfl
      · simp [none] at first
  · rw [if_neg (by simpa using none), mapM_error]
    simp only [PatchInstruction.status_ok, PatchInstruction.status_error]
    constructor
    · rintro ⟨before, refused, after, first, accepted, why⟩
      exact .instruction first accepted why
    · rintro (empty | ⟨first, accepted, why⟩)
      · exact absurd empty none
      · exact ⟨_, _, _, first, accepted, why⟩

theorem refused_or_asks (patch : JobPatch) :
    (∃ e, patch.Refused e) ∨ ∃ statuses, patch.Asks statuses := by
  cases h : patch.statuses with
  | error e => exact .inl ⟨e, statuses_error.mp h⟩
  | ok statuses => exact .inr ⟨statuses, statuses_ok.mp h⟩

end JobPatch

-- ---------------------------------------------------------------------------
-- The calls of a patch
-- ---------------------------------------------------------------------------

namespace Jobs

open Federation.Action

def callFor (id : String) : JobStatus → SchedulerCall
  | .paused => .pause id
  | .running => .resume id

def called (id : String) (node : Node) (statuses : List JobStatus) : Node :=
  statuses.foldl (fun node status => ((apply id status).run node).2) node

/-- One call after the other is made for statuses, up to the first that fails; what the last of
these calls comes to is what comes out. -/
def CarriesOut (id : String) (statuses : List JobStatus) (node : Node)
    (result : Except Failure Job × Node) : Prop :=
  ∃ done status rest, statuses = done ++ status :: rest ∧
    (∀ earlier passed later, done = earlier ++ passed :: later →
      ∃ job, ((apply id passed).run (called id node earlier)).1 = .ok job) ∧
    result = (apply id status).run (called id node done) ∧
    (rest ≠ [] → ∃ failure, result.1 = .error failure)

variable {node : Node}

theorem carriesOut_applyAll (id : String) {statuses : List JobStatus} (present : statuses ≠ []) :
    CarriesOut id statuses node ((applyAll id statuses).run node) := by
  induction statuses generalizing node with
  | nil => exact absurd rfl present
  | cons first rest ih =>
    cases rest with
    | nil => exact ⟨[], first, [], rfl, by simp, rfl, fun h => absurd rfl h⟩
    | cons next rest =>
      have unfolded : applyAll id (first :: next :: rest) = (do
          discard (apply id first)
          applyAll id (next :: rest)) := rfl
      rw [unfolded, run_bind, run_discard]
      rcases hrun : (apply id first).run node with ⟨failure | job, middle⟩
      · exact ⟨[], first, next :: rest, rfl, by simp, hrun.symm, fun _ => ⟨failure, rfl⟩⟩
      · obtain ⟨done, status, rest', split, passed, result, failed⟩ :=
          @ih middle (List.cons_ne_nil _ _)
        have goes (statuses : List JobStatus) :
            called id node (first :: statuses) = called id middle statuses := by
          rw [called, List.foldl_cons, hrun]
          rfl
        refine ⟨first :: done, status, rest', by rw [split]; rfl, ?_, ?_, failed⟩
        · rintro (_ | ⟨_, earlier⟩) status later same
          · cases same
            exact ⟨job, congrArg Prod.fst hrun⟩
          · cases same
            rw [goes]
            exact passed earlier status later rfl
        · rw [goes]
          exact result

def heard (id : String) (history : History) (done : List JobStatus) : History :=
  history ++ done.map fun status => .schedule (callFor id status)

theorem run_apply_external {answer : History → SchedulerCall → Except Failure Job}
    (outside : node.scheduler = .external answer) (id : String) (status : JobStatus) :
    (apply id status).run node =
      (answer node.effects (callFor id status),
        { node with effects := heard id node.effects [status] }) := by
  cases status
  all_goals
    simp only [apply, pause, resume, ask, callFor, heard, run_bind, run_get, outside, run_emit]
    split <;> simp_all

theorem called_external {answer : History → SchedulerCall → Except Failure Job}
    (outside : node.scheduler = .external answer) (id : String) (done : List JobStatus) :
    called id node done = { node with effects := heard id node.effects done } := by
  induction done generalizing node with
  | nil => simp [called, heard]
  | cons first rest ih =>
    have step : called id node (first :: rest) =
        called id ((apply id first).run node).2 rest := rfl
    rw [step, run_apply_external outside, ih (by exact outside)]
    simp [heard]

theorem run_apply_called {answer : History → SchedulerCall → Except Failure Job}
    (outside : node.scheduler = .external answer) (id : String) (done : List JobStatus)
    (status : JobStatus) :
    (apply id status).run (called id node done) =
      (answer (heard id node.effects done) (callFor id status),
        { node with effects := heard id node.effects (done ++ [status]) }) := by
  rw [called_external outside, run_apply_external (by exact outside)]
  simp [heard]

/-- A patch that is refused does nothing; else its calls are made in order, up to the first that
fails. -/
theorem applyPatch_whole (id : String) (patch : JobPatch) (node : Node) :
    (∀ e, patch.Refused e → (applyPatch id patch).run node = (.error (.validation e), node)) ∧
    (∀ statuses, patch.Asks statuses →
      CarriesOut id statuses node ((applyPatch id patch).run node)) ∧
    ((∃ e, patch.Refused e) ∨ ∃ statuses, patch.Asks statuses) ∧
    ∀ answer, node.scheduler = .external answer → ∀ done status,
      (apply id status).run (called id node done) =
        (answer (heard id node.effects done) (callFor id status),
          { node with effects := heard id node.effects (done ++ [status]) }) := by
  refine ⟨fun e refused => ?_, fun statuses asked => ?_, patch.refused_or_asks, ?_⟩
  · rw [applyPatch, run_bind, run_ofExcept, JobPatch.statuses_error.mpr refused]
    rfl
  · rw [applyPatch, run_bind, run_ofExcept, JobPatch.statuses_ok.mpr asked]
    refine carriesOut_applyAll id fun none => ?_
    exact asked.1 (List.forall₂_nil_right_iff.mp (none ▸ asked.2))
  · exact fun answer outside done status => run_apply_called outside id done status

def overworked (history : History) (_ : SchedulerCall) : Except Failure Job :=
  if history.length = 1 then .error (.backend "busy")
  else .ok ⟨"7", "n", "cron", .null, .null, .paused, ⟨⟨2024, 1, 1⟩, 0, 0, 0, 0⟩⟩

def backAndForth : JobPatch :=
  ⟨["paused", "Running", "PAUSED"].map fun text => ⟨"update", "/status", .string text⟩⟩

example (node : Node) :
    let after := (applyPatch "7" backAndForth).run
      { node with scheduler := .external overworked, effects := [] }
    after.1 = .error (.backend "busy") ∧
      after.2.effects = [.schedule (.pause "7"), .schedule (.resume "7")] := ⟨rfl, rfl⟩

end Jobs

end Federation
