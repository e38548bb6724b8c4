import Federation.Proofs.Store.Users
import Federation.Proofs.Time.Rfc3339

/-!
# The shadows of a store

A shadow is found as it was stored, until another one of the same garden and the same name takes its
place. Nothing else in the store changes with it.
-/

namespace Federation

theorem ShadowRow.toShadow_ofShadow {shadow : Shadow} (h : shadow.updatedAt.Valid) :
    (ofShadow shadow).toShadow = .ok shadow := by
  simp [ofShadow, toShadow, Rfc3339.readStored?_writeStored h, RoleAssignment.ofColumn,
    Store.document, RoleAssignment.ofText_text, bind, Except.bind]

/-- Whom a shadow is of, and for which garden. -/
def Shadow.key (shadow : Shadow) : String × String := (shadow.garden, shadow.username)

theorem ShadowRow.key_ofShadow (shadow : Shadow) : (ofShadow shadow).key = shadow.key := rfl

def Tables.withShadow (tables : Tables) (shadow : Shadow) : Tables :=
  { tables with shadows := upsertBy ShadowRow.key (.ofShadow shadow) tables.shadows }

def Tables.withShadows (tables : Tables) (shadows : List Shadow) : Tables :=
  shadows.foldl withShadow tables

/-- Nothing changes but the shadows, and there is still one under each key. -/
theorem Tables.exists_withShadows {tables : Tables}
    (keyed : (tables.shadows.map ShadowRow.key).Nodup) (shadows : List Shadow) :
    ∃ rows, tables.withShadows shadows = { tables with shadows := rows } ∧
      (rows.map ShadowRow.key).Nodup := by
  induction shadows generalizing tables with
  | nil => exact ⟨tables.shadows, rfl, keyed⟩
  | cons shadow rest ih => exact @ih (tables.withShadow shadow) (nodup_upsertBy keyed)

namespace Store

variable {tables : Tables} {shadow : Shadow} {shadows : List Shadow}

theorem putShadow_open (tables : Tables) (shadow : Shadow) :
    putShadow ⟨some tables, true⟩ shadow = .ok ⟨some (tables.withShadow shadow), true⟩ := by
  rw [putShadow, statement_open]
  rfl

theorem shadow?_open (tables : Tables) (garden username : String) :
    shadow? ⟨some tables, true⟩ garden username =
      (tables.shadows.find? fun row => row.key = (garden, username)).mapM ShadowRow.toShadow := by
  rw [shadow?, query_open]

theorem shadow?_withShadow (h : shadow.updatedAt.Valid) (garden username : String) :
    shadow? ⟨some (tables.withShadow shadow), true⟩ garden username =
      if shadow.key = (garden, username) then .ok (some shadow)
      else shadow? ⟨some tables, true⟩ garden username := by
  rw [shadow?_open, Tables.withShadow]
  split
  case isTrue same =>
    rw [← same, ← ShadowRow.key_ofShadow, find?_upsertBy_self, Option.mapM_some,
      ShadowRow.toShadow_ofShadow h]
    rfl
  case isFalse other =>
    have foreign : (garden, username) ≠ (ShadowRow.ofShadow shadow).key := Ne.symm other
    rw [find?_upsertBy_of_ne foreign, shadow?_open]

theorem shadow?_withShadows (h : ∀ shadow ∈ shadows, shadow.updatedAt.Valid)
    (garden username : String) :
    shadow? ⟨some (tables.withShadows shadows), true⟩ garden username =
      match (shadows.filter fun shadow => shadow.key = (garden, username)).getLast? with
      | some shadow => .ok (some shadow)
      | none => shadow? ⟨some tables, true⟩ garden username := by
  induction shadows generalizing tables with
  | nil => rfl
  | cons first rest ih =>
    obtain ⟨valid, others⟩ := List.forall_mem_cons.mp h
    change shadow? ⟨some ((tables.withShadow first).withShadows rest), true⟩ garden username = _
    rw [ih others, shadow?_withShadow valid]
    by_cases same : first.key = (garden, username)
    · rw [List.filter_cons_of_pos (by simpa using same), List.getLast?_cons, if_pos same]
      cases (rest.filter fun shadow => shadow.key = (garden, username)).getLast? <;> rfl
    · rw [List.filter_cons_of_neg (by simpa using same), if_neg same]

theorem shadow?_withoutUsers (store : Store) (garden username : String) :
    store.withoutUsers.shadow? garden username = store.shadow? garden username := by
  obtain ⟨_ | tables, _ | _⟩ := store <;> try rfl
  simp only [withoutUsers, Option.map_some, shadow?_open]

theorem user?_withShadows (tables : Tables) (shadows : List Shadow) (username : String) :
    user? ⟨some (tables.withShadows shadows), true⟩ username =
      user? ⟨some tables, true⟩ username := by
  induction shadows generalizing tables with
  | nil => rfl
  | cons shadow rest ih =>
    refine (ih (tables.withShadow shadow)).trans ?_
    rw [user?, user?, query_open, query_open]
    rfl

end Store

end Federation
