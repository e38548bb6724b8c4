import Federation.Connection.Basic

/-!
# Pushing users when the connection comes up

The state of a connection is shown in a place that keeps only the latest value, and tells those who
watch it that it was set. One task watches it and pushes the users when it looks and finds the
connection up, having found it down the time before. The state may change at any time, also during
a push.
-/

namespace Federation

inductive PushStage where
  | looking
  | pushing
  | watching
  deriving DecidableEq, Repr

structure PushTask where
  state : ConnectionState := .disconnected
  /-- The state has been set since the task last looked. -/
  isSet : Bool := false
  wasConnected : Bool := false
  stage : PushStage := .looking
  /-- A push has begun since the connection last came up. -/
  hasPushed : Bool := false
  deriving DecidableEq, Repr

inductive PushStep where
  | set (state : ConnectionState)
  | look
  | endPush
  | wake
  deriving DecidableEq, Repr

namespace PushTask

/-- The task has nothing to do until the state is set again. -/
def isIdle (task : PushTask) : Bool := task.stage == .watching && !task.isSet

def set (task : PushTask) (state : ConnectionState) : PushTask :=
  let comesUp := state == .connected && task.state != .connected
  { task with state, isSet := true, hasPushed := task.hasPushed && !comesUp }

def look (task : PushTask) : PushTask :=
  let connected := task.state == .connected
  let begins := connected && !task.wasConnected
  { task with
    isSet := false
    wasConnected := connected
    stage := if begins then .pushing else .watching
    hasPushed := task.hasPushed || begins }

def step (task : PushTask) : PushStep → Option PushTask
  | .set state => some (task.set state)
  | .look => if task.stage = .looking then some task.look else none
  | .endPush => if task.stage = .pushing then some { task with stage := .watching } else none
  | .wake =>
    if task.stage = .watching ∧ task.isSet then some { task with stage := .looking } else none

def run (task : PushTask) (steps : List PushStep) : Option PushTask := steps.foldlM step task

end PushTask

end Federation
