import Federation.Garden

/-!
# Jobs

A job is a scheduled unit of work. A caller submits a definition; the scheduler answers with the
job. A patch is a list of instructions that set the status.
-/

namespace Federation

inductive JobStatus where
  | running
  | paused
  deriving DecidableEq, Repr

namespace JobStatus

def name : JobStatus → String
  | .running => "RUNNING"
  | .paused => "PAUSED"

def names : List (String × JobStatus) := [("RUNNING", .running), ("PAUSED", .paused)]

def ofName (text : String) : Except ValidationError JobStatus :=
  match names.lookup (Text.upper text) with
  | some status => .ok status
  | none => .error (.unsupportedStatus text)

theorem ofName_name (status : JobStatus) : ofName status.name = .ok status := by
  cases status <;> rfl

def decoder : Decoder JobStatus := .variant names

def toDocument (status : JobStatus) : Document := .string status.name

instance : Coded JobStatus := ⟨decoder, toDocument⟩

end JobStatus

structure JobDefinition where
  name : String
  triggerType : String
  trigger : Json
  requestTemplate : Json
  deriving Repr, BEq

structure Job where
  id : String
  name : String
  triggerType : String
  trigger : Json
  requestTemplate : Json
  status : JobStatus
  createdAt : Instant
  deriving Repr, BEq

structure PatchInstruction where
  operation : String
  path : String
  value : Json
  deriving Repr, BEq

structure JobPatch where
  operations : List PatchInstruction
  deriving Repr, BEq

namespace JobDefinition

def decoder : Decoder JobDefinition :=
  (Form.pure JobDefinition.mk
    |>.both (.optional "name" .string "")
    |>.both (.optional "trigger_type" .string "")
    |>.both (.optional "trigger" .json .null)
    |>.both (.optional "request_template" .json .null)).decode "JobDefinition"

def toDocument (definition : JobDefinition) : Document :=
  .object [
    ("name", .string definition.name),
    ("trigger_type", .string definition.triggerType),
    ("trigger", definition.trigger.toDocument),
    ("request_template", definition.requestTemplate.toDocument)]

instance : Coded JobDefinition := ⟨decoder, toDocument⟩

end JobDefinition

namespace Job

def decoder : Decoder Job :=
  (Form.pure Job.mk
    |>.both (.required "id" .string)
    |>.both (.required "name" .string)
    |>.both (.required "trigger_type" .string)
    |>.both (.optional "trigger" .json .null)
    |>.both (.optional "request_template" .json .null)
    |>.both (.required "status" JobStatus.decoder)
    |>.both (.required "created_at" .instant)).decode "Job"

def toDocument (job : Job) : Document :=
  .object [
    ("id", .string job.id),
    ("name", .string job.name),
    ("trigger_type", .string job.triggerType),
    ("trigger", job.trigger.toDocument),
    ("request_template", job.requestTemplate.toDocument),
    ("status", .string job.status.name),
    ("created_at", .string (Rfc3339.write job.createdAt))]

instance : Coded Job := ⟨decoder, toDocument⟩

end Job

namespace PatchInstruction

def decoder : Decoder PatchInstruction :=
  (Form.pure PatchInstruction.mk
    |>.both (.required "operation" .string)
    |>.both (.optional "path" .string "")
    |>.both (.optional "value" .json .null)).decode "PatchOperation"

def toDocument (instruction : PatchInstruction) : Document :=
  .object [
    ("operation", .string instruction.operation),
    ("path", .string instruction.path),
    ("value", instruction.value.toDocument)]

instance : Coded PatchInstruction := ⟨decoder, toDocument⟩

end PatchInstruction

namespace JobPatch

/-- The form with the list under a name of its own; a list of fields does not stand for it. -/
def wrapped : Decoder JobPatch := fun source document =>
  match document with
  | .object _ =>
    (Form.pure JobPatch.mk
      |>.both (.required "operations" (.list PatchInstruction.decoder))).decode "JobPatch"
        source document
  | d => Decoder.mismatch "struct JobPatch" d

/-- An object with the list, the bare list, or a single instruction, in this order of preference. -/
def decoder : Decoder JobPatch := fun _ document =>
  match document.fault? with
  | some fault => .error (.unreadable fault)
  | none =>
    match wrapped .buffered document with
    | .ok patch => .ok patch
    | .error _ =>
      match Decoder.list PatchInstruction.decoder .buffered document with
      | .ok operations => .ok ⟨operations⟩
      | .error _ =>
        match PatchInstruction.decoder .buffered document with
        | .ok operation => .ok ⟨[operation]⟩
        | .error _ => .error (.noVariant "RawPatch")

def toDocument (patch : JobPatch) : Document :=
  .object [("operations", .array (patch.operations.map PatchInstruction.toDocument))]

instance : Coded JobPatch := ⟨decoder, toDocument⟩

end JobPatch

end Federation
