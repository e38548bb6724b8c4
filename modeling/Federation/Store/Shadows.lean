import Federation.Store.Users
import Federation.Time.Stored

/-!
# Stored shadows

A shadow is kept by garden and name; those of one garden are listed in the order of their names.
-/

namespace Federation

namespace ShadowRow

def key (row : ShadowRow) : String × String := (row.garden, row.username)

def ofShadow (shadow : Shadow) : ShadowRow :=
  { garden := shadow.garden
    username := shadow.username
    roleAssignments := (RoleAssignment.listDocument shadow.roleAssignments).text
    updatedAt := Rfc3339.writeStored shadow.updatedAt }

def toShadow (row : ShadowRow) : Except StoreError Shadow := do
  let updatedAt ← match Rfc3339.readStored? row.updatedAt with
    | some t => .ok t
    | none => .error (Store.undecodable "updated_at")
  let roleAssignments ← RoleAssignment.ofColumn row.roleAssignments
  .ok { garden := row.garden, username := row.username, roleAssignments, updatedAt }

end ShadowRow

namespace Store

def shadowsTable : String := "remote_users"

def shadow? (store : Store) (garden username : String) : Except StoreError (Option Shadow) :=
  store.query shadowsTable fun tables =>
    (tables.shadows.find? fun row => row.key = (garden, username)).mapM ShadowRow.toShadow

def shadowsOf (store : Store) (garden : String) : Except StoreError (List Shadow) :=
  store.query shadowsTable fun tables =>
    ((tables.shadows.filter fun row => row.garden = garden).mergeSort
      fun a b => a.username ≤ b.username).mapM ShadowRow.toShadow

def putShadow (store : Store) (shadow : Shadow) : Except StoreError Store :=
  (store.statement shadowsTable fun tables =>
    .ok ((), { tables with
      shadows := upsertBy ShadowRow.key (.ofShadow shadow) tables.shadows })).map Prod.snd

end Store

end Federation
