import Federation.Store.Basic
import Federation.User

/-!
# Stored users

Users are kept by name and listed in the order of their names.
-/

namespace Federation

namespace RoleAssignment

def ofColumn (text : String) : Except StoreError (List RoleAssignment) :=
  Store.document (.list decoder) text

end RoleAssignment

namespace UserRow

def ofUser (user : User) : UserRow :=
  { username := user.username
    password := user.password
    roleAssignments := (RoleAssignment.listDocument user.roleAssignments).text }

def toUser (row : UserRow) : Except StoreError User := do
  let roleAssignments ← RoleAssignment.ofColumn row.roleAssignments
  .ok { username := row.username, password := row.password, roleAssignments }

end UserRow

namespace Store

def usersTable : String := "users"

def user? (store : Store) (username : String) : Except StoreError (Option User) :=
  store.query usersTable fun tables =>
    (tables.users.find? fun row => row.username = username).mapM UserRow.toUser

def users (store : Store) : Except StoreError (List User) :=
  store.query usersTable fun tables =>
    (tables.users.mergeSort fun a b => a.username ≤ b.username).mapM UserRow.toUser

def putUser (store : Store) (user : User) : Except StoreError Store :=
  (store.statement usersTable fun tables =>
    .ok ((), { tables with
      users := upsertBy UserRow.username (.ofUser user) tables.users })).map Prod.snd

def deleteUser (store : Store) (username : String) : Except StoreError (Bool × Store) :=
  store.statement usersTable fun tables =>
    .ok (tables.users.any fun row => row.username = username,
      { tables with users := tables.users.filter fun row => row.username ≠ username })

end Store

end Federation
