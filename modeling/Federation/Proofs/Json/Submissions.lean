import Federation.Proofs.Json.Reading
import Federation.Proofs.Json.Rereading

/-!
# What callers say about jobs

A definition and a patch are the same whether they are read from a text or from the value of that
text, and whether they are read there at once or after they were written down again.
-/

namespace Federation

open Number (IsFinite)
open Document (Parts Settles)

section

variable {R : Document → Document → Prop}

theorem JobDefinition.respects (text : Decoder.string.Respects R)
    (value : Decoder.json.Respects R) :
    decoder.Respects (Parts R ["name", "trigger_type", "trigger", "request_template"]) := by
  have made : (Form.pure JobDefinition.mk).Respects [] R := Form.respects_pure _
  have name := made.both (Form.respects_field text "name" (some "")) (by simp)
  have triggerType := name.both (Form.respects_field text "trigger_type" (some "")) (by simp)
  have trigger := triggerType.both (Form.respects_field value "trigger" (some .null)) (by simp)
  have template := trigger.both (Form.respects_field value "request_template" (some .null))
    (by simp)
  exact template.decode _

theorem PatchInstruction.respects (text : Decoder.string.Respects R)
    (value : Decoder.json.Respects R) :
    decoder.Respects (Parts R ["operation", "path", "value"]) := by
  have made : (Form.pure PatchInstruction.mk).Respects [] R := Form.respects_pure _
  have operation := made.both (Form.respects_field text "operation" none) (by simp)
  have path := operation.both (Form.respects_field text "path" (some "")) (by simp)
  have value := path.both (Form.respects_field value "value" (some .null)) (by simp)
  exact value.decode _

theorem JobPatch.wrapped_respects (list : (Decoder.list PatchInstruction.decoder).Respects R) :
    wrapped.Respects (Parts R ["operations"]) := by
  have made : (Form.pure JobPatch.mk).Respects [] R := Form.respects_pure _
  have form := made.both (Form.respects_field list "operations" none) (by simp)
  have object := form.decode "JobPatch"
  intro source later d e patch parts read
  cases parts with
  | items => cases read
  | members related before after => exact object _ _ _ _ _ (.members related before after) read
  | none _ members =>
    cases d with
    | object ms => exact absurd rfl (members ms)
    | _ => cases read

end

-- ---------------------------------------------------------------------------
-- Definitions
-- ---------------------------------------------------------------------------

theorem JobDefinition.decoder_settled {d : Document} (numbers : d.Only IsFinite)
    (read : decoder source d = .ok definition) (later : Source) :
    decoder later d.settled = .ok definition :=
  respects Decoder.respects_string Decoder.respects_json source later d _ _
    ((Settles.of_only numbers).parts _) read

-- ---------------------------------------------------------------------------
-- Patches
-- ---------------------------------------------------------------------------

def PatchInstruction.Clear : Document → Prop
  | .object members =>
    ∀ name ∈ ["operation", "path", "value"], (valuesAt name members).length ≤ 1
  | _ => True

/-- A patch that gives its list once, with instructions in it that give each of their names once. -/
def JobPatch.Clear : Document → Prop
  | .object members =>
    (valuesAt "operations" members).length ≤ 1 ∧
      ∀ items, .array items ∈ valuesAt "operations" members →
        ∀ item ∈ items, PatchInstruction.Clear item
  | _ => True

namespace PatchInstruction

theorem decoder_settles : decoder.Respects Settles :=
  (respects Decoder.respects_string Decoder.respects_json).mono fun _ _ h => h.parts _

theorem decoder_back : decoder.Respects fun e d => Settles d e ∧ Clear d := by
  have back : decoder.Respects (Parts (fun e d => Settles d e ∧ True) _) :=
    respects (Decoder.respects_string_back.mono fun _ _ h => h.1)
      (Decoder.respects_json_back.mono fun _ _ h => h.1)
  refine back.mono fun e d ⟨settles, clear⟩ => ?_
  refine settles.parts_back (fun _ _ _ _ => trivial) fun members same name known => ?_
  subst same
  exact ⟨clear name known, fun _ _ => trivial⟩

end PatchInstruction

namespace JobPatch

theorem list_settles : (Decoder.list PatchInstruction.decoder).Respects Settles :=
  PatchInstruction.decoder_settles.list.mono fun _ _ h => h.parts []

theorem wrapped_settles : wrapped.Respects Settles :=
  (wrapped_respects list_settles).mono fun _ _ h => h.parts _

theorem list_back :
    (Decoder.list PatchInstruction.decoder).Respects fun e d => Settles d e ∧
      ∀ items, d = .array items → ∀ item ∈ items, PatchInstruction.Clear item := by
  have list : (Decoder.list PatchInstruction.decoder).Respects (Parts _ []) :=
    PatchInstruction.decoder_back.list
  refine list.mono fun e d ⟨settles, clear⟩ => ?_
  exact settles.parts_back clear fun _ _ _ none => absurd none (List.not_mem_nil)

theorem wrapped_back : wrapped.Respects fun e d => Settles d e ∧ Clear d := by
  intro source later e d patch ⟨settles, clear⟩ read
  cases d with
  | object members =>
    refine wrapped_respects list_back source later e _ patch (settles.parts_back nofun ?_) read
    rintro members ⟨⟩ name known
    obtain rfl := List.mem_singleton.mp known
    refine ⟨clear.1, fun part given items same => ?_⟩
    subst same
    exact clear.2 items given
  | array items =>
    obtain ⟨-, rfl⟩ := settles
    rw [Document.settled_array] at read
    cases read
  | number n =>
    obtain ⟨numbers, rfl⟩ := settles
    rw [Document.settled_number numbers] at read
    cases read
  | _ =>
    obtain ⟨-, rfl⟩ := settles
    cases read

inductive ReadAs (d : Document) : JobPatch → Prop where
  | wrapped (read : wrapped .buffered d = .ok patch) : ReadAs d patch
  | list (notWrapped : ∀ patch, JobPatch.wrapped .buffered d ≠ .ok patch)
    (read : Decoder.list PatchInstruction.decoder .buffered d = .ok instructions) :
    ReadAs d ⟨instructions⟩
  | single (notWrapped : ∀ patch, JobPatch.wrapped .buffered d ≠ .ok patch)
    (noList : ∀ instructions,
      Decoder.list PatchInstruction.decoder .buffered d ≠ .ok instructions)
    (read : PatchInstruction.decoder .buffered d = .ok instruction) : ReadAs d ⟨[instruction]⟩

theorem readAs_iff {d : Document} (readable : d.fault? = none) (source : Source) :
    decoder source d = .ok patch ↔ ReadAs d patch := by
  rw [decoder, readable]
  constructor
  · intro read
    dsimp only at read
    split at read
    · rename_i found
      cases read
      exact .wrapped found
    · rename_i notWrapped
      have notWrapped : ∀ patch, wrapped .buffered d ≠ .ok patch := by simp [notWrapped]
      split at read
      · rename_i found
        cases read
        exact .list notWrapped found
      · rename_i noList
        have noList : ∀ instructions,
            Decoder.list PatchInstruction.decoder .buffered d ≠ .ok instructions := by
          simp [noList]
        split at read
        · rename_i found
          cases read
          exact .single notWrapped noList found
        · cases read
  · rintro (read | ⟨notWrapped, read⟩ | ⟨notWrapped, noList, read⟩)
    · simp only [read]
    · cases hwrapped : wrapped .buffered d with
      | ok patch => exact absurd hwrapped (notWrapped patch)
      | error _ => simp only [read]
    · cases hwrapped : wrapped .buffered d with
      | ok patch => exact absurd hwrapped (notWrapped patch)
      | error _ =>
        cases hlist : Decoder.list PatchInstruction.decoder .buffered d with
        | ok instructions => exact absurd hlist (noList instructions)
        | error _ => simp only [read]

theorem not_list_of_single {d : Document}
    (read : PatchInstruction.decoder source d = .ok instruction) (later : Source)
    (instructions : List PatchInstruction) :
    Decoder.list PatchInstruction.decoder later d.settled ≠ .ok instructions := by
  intro found
  cases d with
  | object members =>
    rw [Document.settled_object] at found
    cases found
  | array items =>
    rw [Document.settled_array] at found
    -- A list of fields begins with the operation, a text, which is no instruction.
    rcases items with _ | ⟨first, rest⟩
    · cases read
    · obtain ⟨_, hfirst, -⟩ := bind_ok found
      cases first with
      | string _ => cases hfirst
      | _ => cases read
  | _ => cases read

theorem decoder_settled {d : Document} (numbers : d.Only IsFinite) (clear : Clear d)
    (read : decoder source d = .ok patch) (later : Source) :
    decoder later d.settled = .ok patch := by
  have settles := Settles.of_only numbers
  -- That an earlier form does not apply has to hold of the value too; there a patch must be clear.
  have notWrapped (h : ∀ patch, wrapped .buffered d ≠ .ok patch) (patch : JobPatch) :
      wrapped .buffered d.settled ≠ .ok patch :=
    fun found => h patch (wrapped_back _ _ _ d _ ⟨settles, clear⟩ found)
  rw [readAs_iff numbers.settled.fault?]
  rw [readAs_iff numbers.fault?] at read
  cases read with
  | wrapped read => exact .wrapped (wrapped_settles _ _ d _ _ settles read)
  | list none read => exact .list (notWrapped none) (list_settles _ _ d _ _ settles read)
  | single none _ read =>
    exact .single (notWrapped none) (not_list_of_single read _)
      (PatchInstruction.decoder_settles _ _ d _ _ settles read)

end JobPatch

-- ---------------------------------------------------------------------------
-- Written down again
-- ---------------------------------------------------------------------------

def JobPatch.Within (p : Number → Prop) (levels : Nat) (patch : JobPatch) : Prop :=
  ∀ instruction ∈ patch.operations, instruction.value.Within p levels

theorem PatchInstruction.yields_decoder :
    decoder.Yields (Document.Within p (levels + 1)) fun instruction =>
      instruction.value.Within p levels := by
  have text (name : String) (default : Option String) :
      (Form.field name .string default).Yields (Document.Within p levels) (fun _ => True) _ :=
    Form.yields_field (Decoder.yields_any _) fun _ _ => trivial
  have value : (Form.optional "value" .json .null).Yields (Document.Within p levels)
      (Json.Within p levels) _ :=
    Form.yields_field Decoder.yields_json fun v h => Option.some.inj h ▸ Json.within_null
  have made : (Form.pure PatchInstruction.mk).Yields (Document.Within p levels)
      (fun make => ∀ operation, True → ∀ path, True → ∀ value, value.Within p levels →
        (make operation path value).value.Within p levels) _ :=
    Form.yields_pure fun _ _ _ _ _ value => value
  exact (((made.both (text _ _)).both (text _ _)).both value).decode _

namespace JobPatch

theorem yields_wrapped : wrapped.Yields (Document.Within p (levels + 3)) (Within p levels) := by
  have list : (Form.required "operations" (.list PatchInstruction.decoder)).Yields
      (Document.Within p (levels + 2))
      (fun instructions => ∀ instruction ∈ instructions, instruction.value.Within p levels) _ :=
    Form.yields_field (Decoder.yields_list PatchInstruction.yields_decoder) nofun
  have made : (Form.pure JobPatch.mk).Yields (Document.Within p (levels + 2))
      (fun make => ∀ instructions : List PatchInstruction,
        (∀ instruction ∈ instructions, instruction.value.Within p levels) →
          (make instructions).Within p levels) _ :=
    Form.yields_pure fun _ values => values
  intro source d patch within read
  cases d with
  | object => exact (made.both list).decode "JobPatch" source _ patch within read
  | _ => cases read

theorem yields_decoder :
    decoder.Yields (Document.Within p (levels + 3)) (Within p (levels + 2)) := by
  intro source d patch within read
  have readable : d.fault? = none := by
    rw [decoder] at read
    split at read
    · cases read
    · assumption
  cases (readAs_iff readable source).mp read with
  | wrapped found =>
    have values := yields_wrapped _ d patch within found
    exact fun instruction h => (values instruction h).mono (by omega)
  | list _ found =>
    have values := Decoder.yields_list PatchInstruction.yields_decoder _ d _ within found
    exact fun instruction h => (values instruction h).mono (by omega)
  | single _ _ found =>
    have value := PatchInstruction.yields_decoder _ d _ within found
    exact List.forall_mem_singleton.mpr value

theorem within_ofText (h : Coded.ofText text = .ok patch) : Within IsFinite 126 patch :=
  yields_decoder.ofText h

end JobPatch

section

attribute [local simp] Decoder.string bind Except.bind Except.map

theorem JobDefinition.reads {definition : JobDefinition} (h : definition.Within IsFinite levels) :
    decoder.Reads definition.toDocument definition := by
  have trigger := Decoder.reads_json h.trigger.sorted h.trigger.numbers
  have template := Decoder.reads_json h.requestTemplate.sorted h.requestTemplate.numbers
  have numbers : definition.toDocument.Only IsFinite := by
    simp [toDocument, Document.only_object, h.trigger.numbers, h.requestTemplate.numbers]
  have written (source : Source) : decoder source definition.toDocument = .ok definition := by
    simp [decoder, toDocument, trigger.asWritten, template.asWritten]
  exact ⟨written, decoder_settled numbers (written .value)⟩

namespace PatchInstruction

variable {instruction : PatchInstruction}

theorem only_toDocument (h : instruction.value.Within p levels) :
    instruction.toDocument.Only p := by
  simp [toDocument, Document.only_object, h.numbers]

theorem clear_toDocument (instruction : PatchInstruction) : Clear instruction.toDocument := by
  simp [toDocument, Clear, valuesAt]

theorem decoder_toDocument (h : instruction.value.Within IsFinite levels) (source : Source) :
    decoder source instruction.toDocument = .ok instruction := by
  have value := Decoder.reads_json h.sorted h.numbers
  simp [decoder, toDocument, value.asWritten]

end PatchInstruction

theorem JobPatch.reads {patch : JobPatch} (h : patch.Within IsFinite levels) :
    decoder.Reads patch.toDocument patch := by
  have list (source : Source) : Decoder.items PatchInstruction.decoder source
      (patch.operations.map PatchInstruction.toDocument) = .ok patch.operations :=
    Decoder.items_map fun instruction hmem =>
      PatchInstruction.decoder_toDocument (h instruction hmem) source
  have numbers : patch.toDocument.Only IsFinite := by
    rw [toDocument, Document.only_object, List.forall_mem_singleton, Document.only_array,
      List.forall_mem_map]
    exact fun instruction hmem => PatchInstruction.only_toDocument (h instruction hmem)
  have clear : Clear patch.toDocument := by
    refine ⟨Nat.le_refl 1, fun items given => ?_⟩
    obtain rfl := Document.array.inj (List.mem_singleton.mp given)
    exact List.forall_mem_map.mpr fun instruction _ => instruction.clear_toDocument
  have written (source : Source) : decoder source patch.toDocument = .ok patch := by
    refine (readAs_iff numbers.fault? source).mpr (.wrapped ?_)
    simp [wrapped, toDocument, Decoder.list, list]
  exact ⟨written, decoder_settled numbers clear (written .value)⟩

end

-- ---------------------------------------------------------------------------
-- Texts
-- ---------------------------------------------------------------------------

section

variable {text : String} {v : Json} {definition : JobDefinition} {patch : JobPatch}

theorem Decoder.ofText_ok {decoder : Decoder α} (h : decoder.ofText text = .ok x) :
    ∃ d, Document.read text.toList = (d, none) ∧ decoder .text d = .ok x := by
  rw [ofText] at h
  split at h
  · rename_i d hread
    exact ⟨d, hread, h⟩
  · obtain ⟨_, -, stopped⟩ := bind_ok h
    cases stopped

theorem Document.settles_ofText {d : Document} (hread : read text.toList = (d, none))
    (value : Coded.ofText text = .ok v) : d.Only IsFinite ∧ v.toDocument = d.settled := by
  obtain ⟨same, found, value⟩ := Decoder.ofText_ok value
  obtain ⟨rfl, -⟩ := Prod.mk.inj (hread.symm.trans found)
  rw [show Coded.decoder = Decoder.json from rfl, Decoder.json] at value
  split at value
  · rename_i readable
    cases value
    exact ⟨(within_read hread).numbers.only readable, rfl⟩
  · cases value

theorem JobDefinition.ofJson_of_ofText (value : Coded.ofText text = .ok v)
    (h : Coded.ofText text = .ok definition) : Coded.ofJson v = .ok definition := by
  obtain ⟨d, hread, h⟩ := Decoder.ofText_ok h
  obtain ⟨numbers, same⟩ := Document.settles_ofText hread value
  rw [Coded.ofJson, Decoder.ofJson, same]
  exact decoder_settled numbers h .value

theorem JobDefinition.ofJson_toJson (h : Coded.ofText text = .ok definition) :
    Coded.ofJson definition.toDocument.toJson = .ok definition :=
  (reads (within_ofText h)).asValue .value

theorem JobPatch.ofJson_of_ofText (value : Coded.ofText text = .ok v)
    (clear : Clear (Document.read text.toList).1) (h : Coded.ofText text = .ok patch) :
    Coded.ofJson v = .ok patch := by
  obtain ⟨d, hread, h⟩ := Decoder.ofText_ok h
  obtain ⟨numbers, same⟩ := Document.settles_ofText hread value
  rw [hread] at clear
  rw [Coded.ofJson, Decoder.ofJson, same]
  exact decoder_settled numbers clear h .value

theorem JobPatch.ofJson_toJson (h : Coded.ofText text = .ok patch) :
    Coded.ofJson patch.toDocument.toJson = .ok patch :=
  (reads (within_ofText h)).asValue .value

end

end Federation
