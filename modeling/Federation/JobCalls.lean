import Federation.Jobs

/-!
# Calls on jobs side by side

Any number of calls that pause, resume or delete jobs may be under way on one store. Each statement
of the store is one step, so the two statements of a status update may have steps of other calls
between them.
-/

namespace Federation

inductive StatusCall where
  | pause (id : String)
  | resume (id : String)
  | delete (id : String)
  deriving DecidableEq, Repr

inductive StatusCallStage where
  | asked
  /-- The status is set; the job has to be read back. -/
  | set
  /-- What the call came to: the job, unless it was deleted. -/
  | answered (result : Except Failure (Option Job))

structure JobCalls where
  store : Store
  calls : List (StatusCall × StatusCallStage)

namespace StatusCallStage

def ofSetting (store : Store) (id : String) (status : JobStatus) : StatusCallStage × Store :=
  match store.setJobStatus id status with
  | .error e => (.answered (.error (.ofStore e)), store)
  | .ok (false, store) => (.answered (.error (Jobs.notFound id)), store)
  | .ok (true, store) => (.set, store)

def ofReading (store : Store) (id : String) : StatusCallStage :=
  .answered (match store.job id with
    | .error e => .error (.ofStore e)
    | .ok job => .ok (some job))

def ofDeleting (store : Store) (id : String) : StatusCallStage × Store :=
  match store.deleteJob id with
  | .error e => (.answered (.error (.ofStore e)), store)
  | .ok (false, store) => (.answered (.error (Jobs.notFound id)), store)
  | .ok (true, store) => (.answered (.ok none), store)

/-- The next statement of a call; none when it has been answered. -/
def next? (store : Store) : StatusCall → StatusCallStage → Option (StatusCallStage × Store)
  | .pause id, .asked => some (ofSetting store id .paused)
  | .resume id, .asked => some (ofSetting store id .running)
  | .delete id, .asked => some (ofDeleting store id)
  | .pause id, .set | .resume id, .set => some (ofReading store id, store)
  | _, _ => none

end StatusCallStage

namespace JobCalls

def start (store : Store) (calls : List StatusCall) : JobCalls := ⟨store, calls.map (·, .asked)⟩

/-- The call at `index` runs its next statement, if there is one. -/
def step (state : JobCalls) (index : Nat) : Option JobCalls := do
  let (call, stage) ← state.calls[index]?
  let (stage, store) ← StatusCallStage.next? state.store call stage
  some ⟨store, state.calls.set index (call, stage)⟩

/-- Lets calls run a statement each, in the order given. -/
def run (state : JobCalls) (turns : List Nat) : Option JobCalls := turns.foldlM step state

end JobCalls

end Federation
