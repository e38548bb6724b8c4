import Federation.Job

/-!
# Checks before any effect

Job patches, job definitions and usernames are checked as a whole before anything is done.
-/

namespace Federation

namespace PatchInstruction

/-- The status an instruction asks for; operation, path and value are checked in this order. -/
def status (instruction : PatchInstruction) : Except ValidationError JobStatus :=
  if instruction.operation ≠ "update" then .error (.unsupportedOperation instruction.operation)
  else if instruction.path ≠ "/status" then .error (.unsupportedPath instruction.path)
  else
    match instruction.value with
    | .string text => JobStatus.ofName text
    | other => .error (.unsupportedStatus other.text)

end PatchInstruction

namespace JobPatch

/-- The statuses asked for, in order; the first instruction that is refused refuses the patch. -/
def statuses (patch : JobPatch) : Except ValidationError (List JobStatus) :=
  if patch.operations.isEmpty then .error (.required "operations")
  else patch.operations.mapM PatchInstruction.status

end JobPatch

namespace JobDefinition

def triggerTypes : List String := ["date", "interval", "cron"]

def validate (definition : JobDefinition) : Except ValidationError Unit :=
  if Text.isBlankText definition.name then .error (.required "name")
  else if !triggerTypes.contains definition.triggerType then
    .error (.notAllowed "trigger_type" triggerTypes)
  else if !definition.trigger.isNull && !definition.trigger.isObject then
    .error (.invalidFormat "trigger" "must be an object")
  else .ok ()

end JobDefinition

/-- A username is not empty and holds no blank. -/
def validateUsername (username : String) : Except ValidationError Unit :=
  if Text.isBlankText username then .error (.required "username")
  else if Text.hasBlank username then
    .error (.invalidFormat "username" "must not contain whitespace")
  else .ok ()

end Federation
