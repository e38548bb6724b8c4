import Federation.Job
import Federation.Proofs.Json.Records
import Federation.Proofs.Json.Yields
import Federation.Proofs.Time.Rfc3339

/-!
# Jobs that are read back

A job, a definition and a patch are read back from the documents and the values that are written for
them. What a definition holds comes from the document it was read from.
-/

namespace Federation

open Number (IsFinite)

/-- A job as gardens make it: with such numbers, nested no deeper than texts are, and created at a
time that a clock told. -/
structure Job.Within (p : Number → Prop) (job : Job) : Prop where
  trigger : job.trigger.Within p Document.maxDepth
  requestTemplate : job.requestTemplate.Within p Document.maxDepth
  createdAt : job.createdAt.Valid

theorem Job.Within.weaken {job : Job} (h : job.Within p) (hpq : ∀ n, p n → q n) : job.Within q :=
  ⟨h.trigger.weaken hpq, h.requestTemplate.weaken hpq, h.createdAt⟩

section

attribute [local simp] Decoder.string bind Except.bind Except.map

-- The names of a record are put in order one by one.
attribute [local simp] sortMembers insertMember_nil insertMember_before insertMember_behind

theorem JobStatus.reads (status : JobStatus) :
    JobStatus.decoder.Reads status.toDocument status := by
  constructor <;> intro source <;> cases status <;> cases source <;> rfl

theorem Decoder.reads_instant {t : Instant} (h : t.Valid) :
    Reads .instant (.string (Rfc3339.write t)) t := by
  constructor <;> intro source <;> simp [instant, Rfc3339.read_write h]

theorem Job.reads {job : Job} (h : job.Within IsFinite) : Job.decoder.Reads job.toDocument job := by
  have trigger := Decoder.reads_json h.trigger.sorted h.trigger.numbers
  have template := Decoder.reads_json h.requestTemplate.sorted h.requestTemplate.numbers
  have createdAt := Decoder.reads_instant h.createdAt
  have status := job.status.reads
  constructor <;> intro source
  · have statusRead := status.asWritten source
    have timeRead := createdAt.asWritten source
    simp only [JobStatus.toDocument] at statusRead
    simp [Job.decoder, Job.toDocument, trigger.asWritten, template.asWritten, statusRead, timeRead]
  · have statusRead := status.asValue source
    have timeRead := createdAt.asValue source
    simp only [JobStatus.toDocument, Document.toJson_string, Json.toDocument_string]
      at statusRead timeRead
    simp (disch := decide) [Job.decoder, Job.toDocument, trigger.asValue, template.asValue,
      statusRead, timeRead]

end

-- ---------------------------------------------------------------------------
-- What was said about a job
-- ---------------------------------------------------------------------------

structure JobDefinition.Within (p : Number → Prop) (levels : Nat) (definition : JobDefinition) :
    Prop where
  trigger : definition.trigger.Within p levels
  requestTemplate : definition.requestTemplate.Within p levels

theorem JobDefinition.yields_decoder :
    decoder.Yields (Document.Within p (levels + 1)) (JobDefinition.Within p levels) := by
  have text (name : String) :
      (Form.optional name .string "").Yields (Document.Within p levels) (fun _ => True) _ :=
    Form.yields_field (Decoder.yields_any _) fun _ _ => trivial
  have value (name : String) : (Form.optional name .json .null).Yields (Document.Within p levels)
      (Json.Within p levels) _ :=
    Form.yields_field Decoder.yields_json fun v h => Option.some.inj h ▸ Json.within_null
  have made : (Form.pure JobDefinition.mk).Yields (Document.Within p levels)
      (fun make => ∀ name, True → ∀ triggerType, True → ∀ trigger, trigger.Within p levels →
        ∀ template, template.Within p levels →
          (make name triggerType trigger template).Within p levels) _ :=
    Form.yields_pure fun _ _ _ _ _ trigger _ template => ⟨trigger, template⟩
  exact ((((made.both (text _)).both (text _)).both (value _)).both (value _)).decode _

theorem JobDefinition.within_ofJson {v : Json} (hv : v.Within p (levels + 1))
    (h : Coded.ofJson v = .ok definition) : JobDefinition.Within p levels definition :=
  yields_decoder .value v.toDocument definition hv.toDocument h

end Federation
