import Federation.Proofs.Json.Jobs
import Mathlib.Data.List.Forall2
import Mathlib.Data.List.Basic

/-!
# Reading a document again as a value

The value that a document stands for has its members in another order, and of a repeated name only
the last one. What a record is read as from the document it is read as from the value too, and the
other way round where the document gives each name of the record once.
-/

namespace Federation

open Number (IsFinite)

-- ---------------------------------------------------------------------------
-- Values at a name
-- ---------------------------------------------------------------------------

def valuesAt (name : String) (members : List (String × α)) : List α :=
  (members.filter fun m => m.1 = name).map Prod.snd

theorem valuesAt_cons_self (name : String) (v : α) (rest : List (String × α)) :
    valuesAt name ((name, v) :: rest) = v :: valuesAt name rest := by
  simp [valuesAt]

theorem valuesAt_cons_of_ne {name n : String} (other : n ≠ name) (v : α)
    (rest : List (String × α)) : valuesAt name ((n, v) :: rest) = valuesAt name rest := by
  simp [valuesAt, other]

theorem mem_valuesAt {members : List (String × α)} (h : v ∈ valuesAt name members) :
    ∃ m ∈ members, m.2 = v := by
  obtain ⟨m, hm, rfl⟩ := List.mem_map.mp h
  exact ⟨m, (List.mem_filter.mp hm).1, rfl⟩

theorem valuesAt_map (f : α → β) (name : String) (members : List (String × α)) :
    valuesAt name (members.map fun m => (m.1, f m.2)) = (valuesAt name members).map f := by
  simp [valuesAt, List.filter_map, Function.comp_def]

theorem lookup_reverse (name : String) (members : List (String × α)) :
    members.reverse.lookup name = (valuesAt name members).getLast? := by
  induction members with
  | nil => rfl
  | cons m rest ih =>
    obtain ⟨n, v⟩ := m
    rw [List.reverse_cons, List.lookup_append, ih, lookup_cons_eq, List.lookup_nil]
    by_cases same : n = name
    · subst same
      rw [valuesAt_cons_self, List.getLast?_cons]
      cases (valuesAt n rest).getLast? <;> simp
    · rw [valuesAt_cons_of_ne same, if_neg (Ne.symm same), Option.or_none]

theorem InOrder.valuesAt_eq {members : List (String × α)} (order : InOrder members)
    (name : String) : valuesAt name members = (members.lookup name).toList := by
  induction members with
  | nil => rfl
  | cons m rest ih =>
    obtain ⟨n, v⟩ := m
    obtain ⟨later, order⟩ := inOrder_cons.mp order
    rw [lookup_cons_eq]
    by_cases same : n = name
    · subst same
      have absent : rest.lookup n = none := by
        rw [List.lookup_eq_none_iff]
        intro m hm
        simpa using String.ne_of_lt (later m hm)
      rw [valuesAt_cons_self, ih order, absent, if_pos rfl]
      rfl
    · rw [valuesAt_cons_of_ne same, ih order, if_neg (Ne.symm same)]

theorem valuesAt_sortMembers (name : String) (members : List (String × α)) :
    valuesAt name (sortMembers members) = (valuesAt name members).getLast?.toList := by
  rw [(inOrder_sortMembers members).valuesAt_eq, lookup_sortMembers, lookup_reverse]

-- ---------------------------------------------------------------------------
-- The value that a document stands for
-- ---------------------------------------------------------------------------

namespace Document

def settled (d : Document) : Document := d.toJson.toDocument

def settledMembers (members : List (String × Document)) : List (String × Document) :=
  (sortMembers (members.map fun m => (m.1, m.2.toJson))).map fun m => (m.1, m.2.toDocument)

theorem settled_array (items : List Document) :
    (array items).settled = array (items.map settled) := by
  rw [settled, toJson_array, Json.toDocument_array, List.map_map]
  rfl

theorem settled_object (members : List (String × Document)) :
    (object members).settled = object (settledMembers members) := by
  rw [settled, toJson_object, Json.toDocument_object, settledMembers]

theorem valuesAt_settledMembers (name : String) (members : List (String × Document)) :
    valuesAt name (settledMembers members) =
      (valuesAt name members).getLast?.toList.map settled := by
  rw [settledMembers, valuesAt_map, valuesAt_sortMembers, valuesAt_map, List.getLast?_map]
  cases (valuesAt name members).getLast? <;> rfl

theorem valuesAt_settledMembers_once {members : List (String × Document)}
    (once : (valuesAt name members).length ≤ 1) :
    valuesAt name (settledMembers members) = (valuesAt name members).map settled := by
  rw [valuesAt_settledMembers]
  match valuesAt name members, once with
  | [], _ => rfl
  | [_], _ => rfl

theorem settled_number (h : IsFinite n) : (number n).settled = number n := by
  rw [settled, toJson, numberToJson_of_isFinite h]
  rfl

theorem Only.fault? {d : Document} (h : d.Only p) : d.fault? = none := findFault?_of_only _ h

theorem Only.settled {d : Document} (h : d.Only p) : d.settled.Only p := only_toJson h

theorem Only.toJson_settled {d : Document} (h : d.Only IsFinite) : d.settled.toJson = d.toJson :=
  Json.toJson_toDocument d.sorted_toJson (only_toJson h)

end Document

-- ---------------------------------------------------------------------------
-- Related documents
-- ---------------------------------------------------------------------------

def Matches (R : Document → Document → Prop) (names : List String)
    (members others : List (String × Document)) : Prop :=
  ∀ name ∈ names, (valuesAt name members).length ≤ 1 →
    List.Forall₂ R (valuesAt name members) (valuesAt name others)

def Decoder.Respects (decoder : Decoder α) (R : Document → Document → Prop) : Prop :=
  ∀ source later d e x, R d e → decoder source d = .ok x → decoder later e = .ok x

section

variable {R : Document → Document → Prop}

theorem Decoder.Respects.items {decoder : Decoder α} (h : decoder.Respects R)
    {ds es : List Document} (related : List.Forall₂ R ds es) {source later : Source}
    (read : items decoder source ds = .ok xs) : items decoder later es = .ok xs := by
  induction related generalizing xs with
  | nil => exact read
  | cons first _ ih =>
    obtain ⟨x, hx, read⟩ := bind_ok read
    obtain ⟨others, hothers, read⟩ := bind_ok read
    cases read
    rw [Decoder.items, h source later _ _ x first hx, ih hothers]
    rfl

namespace Form

def gather (form : Form α) (source : Source) :
    List (String × Document) → form.Slots → Except DecodeError form.Slots
  | [], slots => .ok slots
  | (name, d) :: rest, slots => do
    let filled ← form.fill source name d slots
    gather form source rest (filled.getD slots)

theorem fillAll_eq_gather (form : Form α) (source : Source) {members : List (String × Document)}
    (readable : ∀ m ∈ members, m.2.Only p) (slots : form.Slots) :
    form.fillAll source members slots = form.gather source members slots := by
  induction members generalizing slots with
  | nil => rfl
  | cons m rest ih =>
    obtain ⟨name, d⟩ := m
    obtain ⟨first, others⟩ := List.forall_mem_cons.mp readable
    have whole : d.break? = none := Document.findFault?_of_only _ first
    rw [fillAll, gather]
    rcases form.fill source name d slots with e | _ | filled
    · rfl
    · simp only [bind, Except.bind, whole, Option.getD_none]
      exact ih others slots
    · simp only [bind, Except.bind, Option.getD_some]
      exact ih others filled

structure Knows (form : Form α) (names : List String) : Prop where
  own : ∀ n source d slots, n ∈ names → form.fill source n d slots ≠ .ok none
  other : ∀ n source d slots, n ∉ names → form.fill source n d slots = .ok none

theorem knows_pure (value : α) : (pure value).Knows [] :=
  ⟨fun _ _ _ _ h => (List.not_mem_nil h).elim, fun _ _ _ _ _ => rfl⟩

theorem knows_field (name : String) (decoder : Decoder α) (default : Option α) :
    (field name decoder default).Knows [name] where
  own n source d slot same := by
    obtain rfl := List.mem_singleton.mp same
    simp only [field, if_true]
    cases slot with
    | some _ => exact nofun
    | none =>
      cases decoder source d with
      | error _ => exact nofun
      | ok _ => exact nofun
  other _ _ _ _ other := if_neg fun same => other (List.mem_singleton.mpr same)

section

variable {f : Form (α → β)} {g : Form α} {slots : (f.both g).Slots}

theorem Knows.fill_both (hf : f.Knows names) (known : n ∈ names) (source : Source) (d : Document) :
    (f.both g).fill source n d slots =
      (f.fill source n d slots.1).map fun filled => filled.map fun first => (first, slots.2) := by
  have taken := hf.own _ source d slots.1 known
  simp only [Form.both]
  rcases hfill : f.fill source n d slots.1 with e | _ | filled
  · rfl
  · exact absurd hfill taken
  · rfl

theorem Knows.fill_both_other (hf : f.Knows names) (unknown : n ∉ names) (source : Source)
    (d : Document) :
    (f.both g).fill source n d slots =
      (g.fill source n d slots.2).map fun filled => filled.map fun second => (slots.1, second) := by
  simp only [Form.both, hf.other _ source d slots.1 unknown]
  rcases g.fill source n d slots.2 with e | _ | filled <;> rfl

theorem Knows.both (hf : f.Knows names) (hg : g.Knows others) :
    (f.both g).Knows (names ++ others) where
  own n source d slots known := by
    by_cases first : n ∈ names
    · have taken := hf.own _ source d slots.1 first
      rw [hf.fill_both first]
      rcases hfill : f.fill source n d slots.1 with e | _ | filled
      · exact nofun
      · exact absurd hfill taken
      · exact nofun
    · have second := (List.mem_append.mp known).resolve_left first
      have taken := hg.own _ source d slots.2 second
      rw [hf.fill_both_other first]
      rcases hfill : g.fill source n d slots.2 with e | _ | filled
      · exact nofun
      · exact absurd hfill taken
      · exact nofun
  other n source d slots unknown := by
    have first : n ∉ names := fun known => unknown (List.mem_append_left _ known)
    have second : n ∉ others := fun known => unknown (List.mem_append_right _ known)
    rw [hf.fill_both_other first, hg.other _ source d slots.2 second]
    rfl

/-- Two forms that know different names take in their members each for itself. -/
theorem gather_both (hf : f.Knows names) (hg : g.Knows others) (apart : names.Disjoint others)
    (source : Source) (members : List (String × Document)) (slots after : (f.both g).Slots) :
    (f.both g).gather source members slots = .ok after ↔
      f.gather source members slots.1 = .ok after.1 ∧
        g.gather source members slots.2 = .ok after.2 := by
  -- Every member is known to one of the forms at most, so the other keeps its slots.
  induction members generalizing slots with
  | nil =>
    simp only [gather, Except.ok.injEq]
    exact Prod.ext_iff
  | cons m rest ih =>
    obtain ⟨n, d⟩ := m
    simp only [gather]
    by_cases first : n ∈ names
    · rw [hf.fill_both first, hg.other _ source d slots.2 (apart first)]
      rcases f.fill source n d slots.1 with e | _ | filled
      · exact ⟨nofun, fun taken => nomatch taken.1⟩
      · exact ih slots
      · exact ih (filled, slots.2)
    · rw [hf.fill_both_other first, hf.other _ source d slots.1 first]
      rcases g.fill source n d slots.2 with e | _ | filled
      · exact ⟨nofun, fun taken => nomatch taken.2⟩
      · exact ih slots
      · exact ih (slots.1, filled)

end

section

variable {name : String} {decoder : Decoder α} {default : Option α} {source : Source}
variable {members : List (String × Document)} {slot : (field name decoder default).Slots}

theorem gather_field_some {x : α} :
    (field name decoder default).gather source members (some x) = .ok slot ↔
      valuesAt name members = [] ∧ slot = some x := by
  induction members with
  | nil => simpa [gather, valuesAt, eq_comm] using ⟨Except.ok.inj, congrArg _⟩
  | cons m rest ih =>
    obtain ⟨n, d⟩ := m
    by_cases same : n = name
    · subst same
      rw [valuesAt_cons_self]
      refine ⟨fun taken => ?_, fun given => nomatch given.1⟩
      simp [gather, bind, Except.bind] at taken
    · rw [valuesAt_cons_of_ne same, ← ih]
      simp [gather, bind, Except.bind, same]

theorem gather_field :
    (field name decoder default).gather source members none = .ok slot ↔
      (valuesAt name members = [] ∧ slot = none) ∨
        ∃ d x, valuesAt name members = [d] ∧ decoder source d = .ok x ∧ slot = some x := by
  induction members with
  | nil => simpa [gather, valuesAt, eq_comm] using ⟨Except.ok.inj, congrArg _⟩
  | cons m rest ih =>
    obtain ⟨n, d⟩ := m
    by_cases same : n = name
    · subst same
      rw [valuesAt_cons_self]
      cases hread : decoder source d with
      | error e => simp [gather, bind, Except.bind, Except.map, hread]
      | ok x =>
        have filled : (field n decoder default).gather source ((n, d) :: rest) none =
            (field n decoder default).gather source rest (some x) := by
          simp [gather, bind, Except.bind, Except.map, hread]
        rw [filled, gather_field_some]
        simp [hread]
    · rw [valuesAt_cons_of_ne same, ← ih]
      simp [gather, bind, Except.bind, same]

end

structure Respects (form : Form α) (names : List String) (R : Document → Document → Prop) :
    Prop where
  knows : form.Knows names
  gather : ∀ source later members others slots, Matches R names members others →
    form.gather source members form.empty = .ok slots →
      form.gather later others form.empty = .ok slots
  inOrder : ∀ source later index ds es slots rest, List.Forall₂ R ds es →
    form.fillInOrder source index ds = .ok (slots, rest) →
      ∃ left, form.fillInOrder later index es = .ok (slots, left) ∧ List.Forall₂ R rest left

theorem gather_pure (value : α) (source : Source) (members : List (String × Document)) :
    (pure value).gather source members () = .ok () := by
  induction members with
  | nil => rfl
  | cons m rest ih => exact ih

theorem respects_pure (value : α) : (pure value).Respects [] R where
  knows := knows_pure value
  gather _ _ _ _ _ _ _ := gather_pure value _ _
  inOrder _ _ _ _ _ _ _ related taken := by
    cases taken
    exact ⟨_, rfl, related⟩

theorem respects_field {decoder : Decoder α} (h : decoder.Respects R) (name : String)
    (default : Option α) : (field name decoder default).Respects [name] R where
  knows := knows_field name decoder default
  gather source later members others slots same taken := by
    have related := same name List.mem_cons_self
    rcases gather_field.mp taken with ⟨absent, rfl⟩ | ⟨d, x, given, read, rfl⟩
    · rw [absent] at related
      exact gather_field.mpr (.inl ⟨List.forall₂_nil_left_iff.mp (related (Nat.zero_le _)), rfl⟩)
    · rw [given] at related
      obtain ⟨e, left, first, none, others⟩ :=
        List.forall₂_cons_left_iff.mp (related (Nat.le_refl _))
      obtain rfl := List.forall₂_nil_left_iff.mp none
      exact gather_field.mpr (.inr ⟨e, x, others, h source later d e x first read, rfl⟩)
  inOrder source later index ds es slots rest related taken := by
    cases related with
    | nil =>
      simp only [field] at taken ⊢
      split at taken
      · cases taken
        exact ⟨[], rfl, .nil⟩
      · cases taken
    | @cons d e ds es first others =>
      simp only [field] at taken ⊢
      split at taken
      · rename_i x read
        cases taken
        exact ⟨es, by rw [h source later d e x first read], others⟩
      · cases taken

theorem Respects.both {f : Form (α → β)} {g : Form α} (hf : f.Respects names R)
    (hg : g.Respects others R) (apart : names.Disjoint others) :
    (f.both g).Respects (names ++ others) R where
  knows := hf.knows.both hg.knows
  gather source later members others slots same taken := by
    have apart := gather_both hf.knows hg.knows apart
    obtain ⟨first, second⟩ := (apart source members _ slots).mp taken
    refine (apart later others _ slots).mpr ⟨?_, ?_⟩
    · exact hf.gather source later _ _ _ (fun n known => same n (List.mem_append_left _ known))
        first
    · exact hg.gather source later _ _ _ (fun n known => same n (List.mem_append_right _ known))
        second
  inOrder source later index ds es slots rest related taken := by
    obtain ⟨⟨first, middle⟩, hfirst, taken⟩ := bind_ok taken
    obtain ⟨⟨second, last⟩, hsecond, taken⟩ := bind_ok taken
    cases taken
    obtain ⟨between, first, related⟩ := hf.inOrder _ later _ _ _ _ _ related hfirst
    obtain ⟨left, second, related⟩ := hg.inOrder _ later _ _ _ _ _ related hsecond
    refine ⟨left, ?_, related⟩
    simp only [Form.both, first, second, bind, Except.bind]

end Form

inductive Document.Parts (R : Document → Document → Prop) (names : List String) :
    Document → Document → Prop where
  | items (related : List.Forall₂ R ds es) : Parts R names (.array ds) (.array es)
  | members (related : Matches R names members others)
    (before : ∀ m ∈ members, m.2.Only IsFinite) (after : ∀ m ∈ others, m.2.Only IsFinite) :
    Parts R names (.object members) (.object others)
  | none (items : ∀ ds, d ≠ .array ds) (members : ∀ ms, d ≠ .object ms) : Parts R names d e

theorem Form.Respects.decode {form : Form α} (h : form.Respects names R) (name : String) :
    (form.decode name).Respects (Document.Parts R names) := by
  intro source later d e x parts read
  cases parts with
  | items related =>
    simp only [Form.decode] at read ⊢
    split at read
    · cases read
    · cases read
    · rename_i slots rest taken
      obtain ⟨left, again, related⟩ := h.inOrder _ later _ _ _ _ _ related taken
      rw [again]
      cases related with
      | nil => exact read
      | cons => cases read
  | members related before after =>
    obtain ⟨slots, taken, read⟩ := bind_ok read
    rw [fillAll_eq_gather form source before] at taken
    simp only [Form.decode, fillAll_eq_gather form later after, h.gather _ later _ _ _ related taken]
    exact read
  | none items members =>
    cases d with
    | array ds => exact absurd rfl (items ds)
    | object ms => exact absurd rfl (members ms)
    | _ => cases read

theorem Decoder.Respects.list {decoder : Decoder α} (h : decoder.Respects R) :
    (list decoder).Respects (Document.Parts R names) := by
  intro source later d e xs parts read
  cases parts with
  | items related => exact h.items related read
  | members => cases read
  | none items =>
    cases d with
    | array ds => exact absurd rfl (items ds)
    | _ => cases read

theorem Decoder.Respects.mono {decoder : Decoder α} {S : Document → Document → Prop}
    (h : decoder.Respects S) (weaker : ∀ d e, R d e → S d e) : decoder.Respects R :=
  fun source later d e x related => h source later d e x (weaker d e related)

end

-- ---------------------------------------------------------------------------
-- From a document to its value and back
-- ---------------------------------------------------------------------------

/-- The second is the document of the value that the first stands for. -/
structure Document.Settles (d e : Document) : Prop where
  numbers : d.Only IsFinite
  same : e = d.settled

namespace Document

theorem Settles.of_only {d : Document} (h : d.Only IsFinite) : Settles d d.settled := ⟨h, rfl⟩

theorem only_settledMembers {members : List (String × Document)}
    (h : (object members).Only p) : ∀ m ∈ settledMembers members, m.2.Only p := by
  have settled := h.settled
  rw [settled_object] at settled
  exact only_object.mp settled

theorem Settles.parts {d e : Document} (h : Settles d e) (names : List String) :
    Parts Settles names d e := by
  obtain ⟨numbers, rfl⟩ := h
  cases d with
  | array ds =>
    rw [settled_array]
    refine .items (List.forall₂_map_right_iff.mpr (List.forall₂_same.mpr fun d hd => ?_))
    exact .of_only (only_array.mp numbers d hd)
  | object members =>
    have parts := only_object.mp numbers
    rw [settled_object]
    refine .members (fun name _ once => ?_) parts (only_settledMembers numbers)
    rw [valuesAt_settledMembers_once once]
    refine List.forall₂_map_right_iff.mpr (List.forall₂_same.mpr fun part hpart => ?_)
    obtain ⟨m, hm, rfl⟩ := mem_valuesAt hpart
    exact .of_only (parts m hm)
  | _ => exact .none nofun nofun

theorem Settles.parts_back {P : Document → Prop} {d e : Document} (h : Settles d e)
    (items : ∀ ds, d = .array ds → ∀ part ∈ ds, P part)
    (members : ∀ ms, d = .object ms → ∀ name ∈ names,
      (valuesAt name ms).length ≤ 1 ∧ ∀ part ∈ valuesAt name ms, P part) :
    Parts (fun e d => Settles d e ∧ P d) names e d := by
  obtain ⟨numbers, rfl⟩ := h
  cases d with
  | array ds =>
    rw [settled_array]
    refine .items (List.forall₂_map_left_iff.mpr (List.forall₂_same.mpr fun d hd => ?_))
    exact ⟨.of_only (only_array.mp numbers d hd), items ds rfl d hd⟩
  | object ms =>
    rw [settled_object]
    refine .members (fun name known _ => ?_) (only_settledMembers numbers)
      (only_object.mp numbers)
    obtain ⟨once, such⟩ := members ms rfl name known
    rw [valuesAt_settledMembers_once once]
    refine List.forall₂_map_left_iff.mpr (List.forall₂_same.mpr fun part hpart => ?_)
    obtain ⟨m, hm, rfl⟩ := mem_valuesAt hpart
    exact ⟨.of_only (only_object.mp numbers m hm), such m.2 hpart⟩
  | number n =>
    rw [settled_number numbers]
    exact .none nofun nofun
  | _ => exact .none nofun nofun

end Document

namespace Decoder

theorem respects_string : string.Respects Document.Settles := by
  rintro source later d e s ⟨_, rfl⟩ read
  cases d with
  | string _ => exact read
  | _ => cases read

theorem respects_json : json.Respects Document.Settles := by
  rintro source later d e v ⟨numbers, rfl⟩ read
  rw [json_of_only numbers] at read
  rw [json_of_only numbers.settled, numbers.toJson_settled, read]

theorem respects_string_back : string.Respects fun e d => Document.Settles d e := by
  rintro source later e d s ⟨numbers, rfl⟩ read
  cases d with
  | string _ => exact read
  | number n =>
    rw [Document.settled_number numbers] at read
    cases read
  | _ => cases read

theorem respects_json_back : json.Respects fun e d => Document.Settles d e := by
  rintro source later e d v ⟨numbers, rfl⟩ read
  rw [json_of_only numbers.settled, numbers.toJson_settled] at read
  rw [json_of_only numbers, read]

end Decoder

end Federation
