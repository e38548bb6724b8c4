import Federation.Proofs.Store.Users

/-!
# The gardens of a store

A garden is read back from the row that is written for it, with its namespaces in order. A store
that keeps certain gardens lists those that are remote, by name.
-/

namespace Federation

theorem Document.plain_ofTexts (texts : List String) :
    (Document.ofTexts texts).Only p ∧ (Document.ofTexts texts).depth ≤ 1 := by
  constructor
  · simp [ofTexts, only_array]
  · simp [ofTexts, depth_array_le]

theorem GardenRow.toGarden_ofGarden (garden : Garden) :
    (GardenRow.ofGarden garden).toGarden =
      .ok { garden with namespaces := sortTexts garden.namespaces } := by
  have read : Store.document (Decoder.list .string |>.map sortTexts)
      (Document.ofTexts garden.namespaces).text = .ok (sortTexts garden.namespaces) := by
    obtain ⟨only, depth⟩ := Document.plain_ofTexts (p := Number.ReadsBack) garden.namespaces
    have texts := ((Decoder.reads_texts garden.namespaces).map sortTexts).ofText only
      (Nat.le_trans depth (by decide))
    rw [Store.document, texts, mapError_ok]
  cases hkind : garden.connectionType with
  | none => simp [toGarden, ofGarden, kind?, hkind, read, bind, Except.bind]
  | some kind =>
    simp [toGarden, ofGarden, kind?, hkind, ConnectionType.ofName_name, read, Except.map, bind,
      Except.bind]

theorem GardenRow.name_toGarden {row : GardenRow} (h : row.toGarden = .ok garden) :
    garden.name = row.name := by
  unfold toGarden at h
  obtain ⟨kind, -, h⟩ := bind_ok h
  obtain ⟨namespaces, -, h⟩ := bind_ok h
  cases h
  rfl

theorem GardenRow.isRemote_ofGarden (garden : Garden) :
    (GardenRow.ofGarden garden).isRemote = garden.isRemote := by
  obtain ⟨_, kind, _⟩ := garden
  cases kind with
  | none => rfl
  | some kind => cases kind <;> rfl

-- ---------------------------------------------------------------------------
-- Rows for records
-- ---------------------------------------------------------------------------

section Upsert

variable [DecidableEq κ] {key : α → κ} {row : α} {rows : List α}

theorem map_upsertBy (key : β → κ) (f : α → β) (row : α) (rows : List α) :
    (upsertBy (key ∘ f) row rows).map f = upsertBy key (f row) (rows.map f) := by
  induction rows with
  | nil => rfl
  | cons r rest ih =>
    simp only [upsertBy, List.map_cons, Function.comp_apply]
    split
    · rfl
    · rw [List.map_cons, ih]

theorem mem_upsertBy_self : row ∈ upsertBy key row rows :=
  List.mem_of_find?_eq_some find?_upsertBy_self

theorem mem_upsertBy_of_ne (h : r ∈ rows) (hk : key r ≠ key row) : r ∈ upsertBy key row rows := by
  induction rows with
  | nil => cases h
  | cons first rest ih =>
    rw [upsertBy]
    rcases List.mem_cons.mp h with rfl | h
    · rw [if_neg hk]
      exact List.mem_cons_self
    · split
      · exact List.mem_cons_of_mem _ h
      · exact List.mem_cons_of_mem _ (ih h)

end Upsert

-- ---------------------------------------------------------------------------
-- Stores that keep certain gardens
-- ---------------------------------------------------------------------------

namespace Store

structure KeepsGardens (store : Store) (gardens : List Garden) : Prop where
  isOpen : store.isOpen = true
  rows : store.tables.map Tables.gardens = some (gardens.map GardenRow.ofGarden)

def remotesOf (gardens : List Garden) : List Garden :=
  ((gardens.filter Garden.isRemote).mergeSort fun a b => a.name ≤ b.name).map fun garden =>
    { garden with namespaces := sortTexts garden.namespaces }

variable {store : Store} {gardens : List Garden}

theorem KeepsGardens.exists_tables (h : store.KeepsGardens gardens) :
    ∃ tables, store = ⟨some tables, true⟩ ∧ tables.gardens = gardens.map GardenRow.ofGarden := by
  obtain ⟨tables, htables, rows⟩ := Option.map_eq_some_iff.mp h.rows
  obtain ⟨_, _⟩ := store
  have isOpen := h.isOpen
  subst htables isOpen
  exact ⟨tables, rfl, rows⟩

theorem KeepsGardens.putGarden (h : store.KeepsGardens gardens) (garden : Garden) :
    ∃ after, store.putGarden garden = .ok after ∧
      after.KeepsGardens (upsertBy Garden.name garden gardens) := by
  obtain ⟨tables, rfl, rows⟩ := h.exists_tables
  refine ⟨⟨some { tables with
    gardens := upsertBy GardenRow.name (.ofGarden garden) tables.gardens }, true⟩, ?_, rfl, ?_⟩
  · rw [Store.putGarden, statement_open]
    rfl
  · rw [Option.map_some, rows, ← map_upsertBy]
    rfl

theorem KeepsGardens.remoteGardens (h : store.KeepsGardens gardens) :
    store.remoteGardens = .ok (remotesOf gardens) := by
  obtain ⟨tables, rfl, rows⟩ := h.exists_tables
  have remote : GardenRow.isRemote ∘ GardenRow.ofGarden = Garden.isRemote :=
    funext GardenRow.isRemote_ofGarden
  have sorted : byName ((gardens.filter Garden.isRemote).map GardenRow.ofGarden) =
      ((gardens.filter Garden.isRemote).mergeSort fun a b => a.name ≤ b.name).map
        GardenRow.ofGarden :=
    (List.map_mergeSort (s := fun a b : GardenRow => decide (a.name ≤ b.name))
      fun _ _ _ _ => rfl).symm
  rw [Store.remoteGardens, query_open, rows, List.filter_map, remote, sorted,
    mapM_map_ok fun garden _ => GardenRow.toGarden_ofGarden garden, remotesOf]

theorem mem_names_remotesOf :
    name ∈ (remotesOf gardens).map Garden.name ↔
      ∃ garden ∈ gardens, garden.isRemote = true ∧ garden.name = name := by
  simp only [remotesOf, List.map_map, List.mem_map, List.mem_mergeSort, List.mem_filter,
    Function.comp_apply, and_assoc]

theorem pairwise_names_remotesOf (gardens : List Garden) :
    ((remotesOf gardens).map Garden.name).Pairwise (· ≤ ·) := by
  rw [remotesOf, List.map_map]
  exact pairwise_mergeSort_key (gardens.filter Garden.isRemote)

theorem nodup_names_remotesOf (h : (gardens.map Garden.name).Nodup) :
    ((remotesOf gardens).map Garden.name).Nodup := by
  have remote : ((gardens.filter Garden.isRemote).map Garden.name).Nodup :=
    h.sublist (List.filter_sublist.map _)
  have perm := List.mergeSort_perm (gardens.filter Garden.isRemote) fun a b => a.name ≤ b.name
  rw [remotesOf, List.map_map]
  exact (perm.map _).nodup_iff.mpr remote

end Store

end Federation
