import Federation.Proofs.Json.Members
import Federation.Proofs.Json.RoundTrip

/-!
# Values and the documents that stand for them

A value whose members are in order and whose numbers are finite is what its
document stands for. Reading a document as a value always puts the members in
order, nests nothing deeper and makes up no numbers.
-/

namespace Federation

open Number (IsFinite)

-- ---------------------------------------------------------------------------
-- Induction
-- ---------------------------------------------------------------------------

@[elab_as_elim]
theorem Json.byParts {P : Json → Prop} (null : P .null) (bool : ∀ b, P (.bool b))
    (number : ∀ n, P (.number n)) (string : ∀ s, P (.string s))
    (array : ∀ items : List Json, (∀ v ∈ items, P v) → P (.array items))
    (object : ∀ members : List (String × Json), (∀ m ∈ members, P m.2) → P (.object members))
    (v : Json) : P v :=
  match v with
  | .null => null
  | .bool b => bool b
  | .number n => number n
  | .string s => string s
  | .array items => array items fun v hv =>
      have := List.sizeOf_lt_of_mem hv
      byParts null bool number string array object v
  | .object members => object members fun m hm =>
      have := sizeOf_member hm
      byParts null bool number string array object m.2
termination_by sizeOf v

-- ---------------------------------------------------------------------------
-- Lists of parts
-- ---------------------------------------------------------------------------

namespace Document

@[simp] theorem only_string (s : String) : (string s).Only p := trivial

@[simp] theorem depth_string (s : String) : (string s).depth = 0 := rfl

@[simp] theorem toJson_null : null.toJson = .null := rfl

@[simp] theorem toJson_string (s : String) : (string s).toJson = .string s := rfl

@[simp] theorem toJson_array (items : List Document) :
    (array items).toJson = .array (items.map toJson) := by
  rw [toJson]
  congr 1
  induction items with
  | nil => rfl
  | cons d rest ih => simp [toJsonItems, ih]

@[simp] theorem toJson_object (members : List (String × Document)) :
    (object members).toJson = .object (sortMembers (members.map fun m => (m.1, m.2.toJson))) := by
  rw [toJson]
  congr 2
  induction members with
  | nil => rfl
  | cons m rest ih => simp [toJsonMembers, ih]

theorem depth_array_le {items : List Document} :
    (array items).depth ≤ n + 1 ↔ ∀ d ∈ items, d.depth ≤ n := by
  rw [depth, Nat.add_le_add_iff_right]
  induction items with
  | nil => simp [depthItems]
  | cons d rest ih => simp only [depthItems, Nat.max_le, List.forall_mem_cons, ih]

theorem depth_object_le {members : List (String × Document)} :
    (object members).depth ≤ n + 1 ↔ ∀ m ∈ members, m.2.depth ≤ n := by
  rw [depth, Nat.add_le_add_iff_right]
  induction members with
  | nil => simp [depthMembers]
  | cons m rest ih => simp only [depthMembers, Nat.max_le, List.forall_mem_cons, ih]

end Document

namespace Json

@[simp] theorem toDocument_null : null.toDocument = .null := rfl

@[simp] theorem toDocument_string (s : String) : (string s).toDocument = .string s := rfl

@[simp] theorem toDocument_array (items : List Json) :
    (array items).toDocument = .array (items.map toDocument) := by
  rw [toDocument]
  congr 1
  induction items with
  | nil => rfl
  | cons v rest ih => simp [toDocumentItems, ih]

@[simp] theorem toDocument_object (members : List (String × Json)) :
    (object members).toDocument = .object (members.map fun m => (m.1, m.2.toDocument)) := by
  rw [toDocument]
  congr 1
  induction members with
  | nil => rfl
  | cons m rest ih => simp [toDocumentMembers, ih]

theorem sorted_array {items : List Json} : (array items).Sorted ↔ ∀ v ∈ items, v.Sorted := by
  rw [Sorted]
  induction items with
  | nil => simp [SortedItems]
  | cons v rest ih => simp [SortedItems, ih]

theorem sorted_object {members : List (String × Json)} :
    (object members).Sorted ↔ InOrder members ∧ ∀ m ∈ members, m.2.Sorted := by
  have parts : SortedMembers members ↔ ∀ m ∈ members, m.2.Sorted := by
    induction members with
    | nil => simp [SortedMembers]
    | cons m rest ih => simp [SortedMembers, ih]
  rw [Sorted, InOrder, parts]

theorem only_array {items : List Json} :
    (array items).toDocument.Only p ↔ ∀ v ∈ items, v.toDocument.Only p := by
  rw [toDocument_array, Document.only_array, List.forall_mem_map]

theorem only_object {members : List (String × Json)} :
    (object members).toDocument.Only p ↔ ∀ m ∈ members, m.2.toDocument.Only p := by
  rw [toDocument_object, Document.only_object, List.forall_mem_map]

end Json

-- ---------------------------------------------------------------------------
-- What only the text shows
-- ---------------------------------------------------------------------------

theorem Document.findFault?_of_only {d : Document} (wanted : JsonFault → Bool) :
    d.Only p → d.findFault? wanted = none := by
  induction d using Document.byParts with
  | array items ih =>
    intro h
    rw [findFault?]
    induction items with
    | nil => rfl
    | cons d rest inner =>
      rw [findFaultItems?, ih d List.mem_cons_self h.1]
      exact inner (fun e he => ih e (List.mem_cons_of_mem _ he)) h.2
  | object members ih =>
    intro h
    rw [findFault?]
    induction members with
    | nil => rfl
    | cons m rest inner =>
      rw [findFaultMembers?, ih m List.mem_cons_self h.1]
      exact inner (fun e he => ih e (List.mem_cons_of_mem _ he)) h.2
  | unreadable fault => exact False.elim
  | _ => exact fun _ => rfl

theorem Decoder.json_of_only {d : Document} (h : d.Only p) (source : Source) :
    Decoder.json source d = .ok d.toJson := by
  simp [Decoder.json, Document.fault?, Document.findFault?_of_only _ h]

-- ---------------------------------------------------------------------------
-- There and back
-- ---------------------------------------------------------------------------

theorem Document.numberToJson_of_isFinite {n : Number} (h : n.IsFinite) :
    numberToJson n = .number n := by
  cases n with
  | int => rfl
  | real d => exact if_pos h

theorem Json.toJson_toDocument {v : Json} :
    v.Sorted → v.toDocument.Only IsFinite → v.toDocument.toJson = v := by
  induction v using Json.byParts with
  | number n => exact fun _ => Document.numberToJson_of_isFinite
  | array items ih =>
    rw [sorted_array, only_array, toDocument_array, Document.toJson_array, List.map_map]
    intro hs hn
    congr 1
    exact (List.map_congr_left fun v hv => ih v hv (hs v hv) (hn v hv)).trans (List.map_id _)
  | object members ih =>
    rw [sorted_object, only_object, toDocument_object, Document.toJson_object, List.map_map]
    rintro ⟨order, hs⟩ hn
    have parts : members.map ((fun m => (m.1, m.2.toJson)) ∘ fun m => (m.1, m.2.toDocument)) =
        members := by
      refine (List.map_congr_left (g := id) fun m hm => ?_).trans (List.map_id _)
      exact Prod.ext rfl (ih m hm (hs m hm) (hn m hm))
    rw [parts, order.sortMembers_eq]
  | _ => exact fun _ _ => rfl

namespace Document

theorem sorted_toJson (d : Document) : d.toJson.Sorted := by
  induction d using Document.byParts with
  | number n =>
    cases n with
    | int => exact trivial
    | real d =>
      rw [toJson, numberToJson]
      split <;> exact trivial
  | array items ih =>
    rw [toJson_array, Json.sorted_array, List.forall_mem_map]
    exact ih
  | object members ih =>
    rw [toJson_object, Json.sorted_object]
    refine ⟨inOrder_sortMembers _, fun m hm => ?_⟩
    obtain ⟨e, he, rfl⟩ := List.mem_map.mp (mem_sortMembers hm)
    exact ih e he
  | _ => exact trivial

theorem only_toJson {d : Document} : d.Only p → d.toJson.toDocument.Only p := by
  induction d using Document.byParts with
  | number n =>
    cases n with
    | int => exact id
    | real d =>
      intro h
      rw [toJson, numberToJson]
      split
      · exact h
      · exact trivial
  | array items ih =>
    rw [only_array, toJson_array, Json.only_array, List.forall_mem_map]
    exact fun h d hd => ih d hd (h d hd)
  | object members ih =>
    rw [only_object, toJson_object, Json.only_object]
    intro h m hm
    obtain ⟨e, he, rfl⟩ := List.mem_map.mp (mem_sortMembers hm)
    exact ih e he (h e he)
  | unreadable fault => exact False.elim
  | _ => exact fun _ => trivial

theorem depth_toJson (d : Document) : d.toJson.toDocument.depth ≤ d.depth := by
  induction d using Document.byParts with
  | number n =>
    cases n with
    | int => exact Nat.le_refl _
    | real d =>
      rw [toJson, numberToJson]
      split <;> exact Nat.le_refl _
  | array items ih =>
    have inner : ∀ d ∈ items, d.depth ≤ depthItems items := depth_array_le.mp (Nat.le_refl _)
    rw [toJson_array, Json.toDocument_array, List.map_map]
    refine depth_array_le.mpr (List.forall_mem_map.mpr fun d hd => ?_)
    exact Nat.le_trans (ih d hd) (inner d hd)
  | object members ih =>
    have inner : ∀ m ∈ members, m.2.depth ≤ depthMembers members :=
      depth_object_le.mp (Nat.le_refl _)
    rw [toJson_object, Json.toDocument_object]
    refine depth_object_le.mpr (List.forall_mem_map.mpr fun m hm => ?_)
    obtain ⟨e, he, rfl⟩ := List.mem_map.mp (mem_sortMembers hm)
    exact Nat.le_trans (ih e he) (inner e he)
  | _ => exact Nat.le_refl _

end Document

end Federation
