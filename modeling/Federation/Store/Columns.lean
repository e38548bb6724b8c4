import Federation.Store.Gardens
import Federation.Store.Jobs
import Federation.Store.Shadows

/-!
# Overwriting columns

A statement that sets one column of every row of a table to one value. Rows in the store need not
come from records, so every column may hold any text its constraints allow.
-/

namespace Federation

/-- A column: how it is set, and whether it may be empty. -/
structure Column (α : Type) where
  set : String → α → α
  clear : Option (α → α) := none

namespace Column

def gardens (name : String) : Option (Column GardenRow) :=
  match name with
  | "name" => some { set := fun v row => { row with name := v } }
  | "connection_type" => some
    { set := fun v row => { row with connectionType := some v }
      clear := some fun row => { row with connectionType := none } }
  | "namespaces" => some { set := fun v row => { row with namespaces := v } }
  | _ => none

def users (name : String) : Option (Column UserRow) :=
  match name with
  | "username" => some { set := fun v row => { row with username := v } }
  | "password" => some
    { set := fun v row => { row with password := some v }
      clear := some fun row => { row with password := none } }
  | "role_assignments" => some { set := fun v row => { row with roleAssignments := v } }
  | _ => none

def shadows (name : String) : Option (Column ShadowRow) :=
  match name with
  | "garden" => some { set := fun v row => { row with garden := v } }
  | "username" => some { set := fun v row => { row with username := v } }
  | "role_assignments" => some { set := fun v row => { row with roleAssignments := v } }
  | "updated_at" => some { set := fun v row => { row with updatedAt := v } }
  | _ => none

def jobs (name : String) : Option (Column JobRow) :=
  match name with
  | "id" => some { set := fun v row => { row with id := v } }
  | "name" => some { set := fun v row => { row with name := v } }
  | "trigger_type" => some { set := fun v row => { row with triggerType := v } }
  | "trigger_args" => some { set := fun v row => { row with trigger := v } }
  | "request_template" => some { set := fun v row => { row with requestTemplate := v } }
  | "status" => some { set := fun v row => { row with status := v } }
  | "created_at" => some { set := fun v row => { row with createdAt := v } }
  | _ => none

/-- The constraints of a table: the columns of its key, and a check on rows with its text. -/
structure Constraints (α κ : Type) where
  table : String
  keyName : String
  key : α → κ
  check : α → Bool := fun _ => true
  checkText : String := ""

def overwrite [DecidableEq κ] (constraints : Constraints α κ) (column : String)
    (find : Option (Column α)) (value : Option String) (rows : List α) :
    Except StoreError (List α) :=
  match find with
  | none => .error (.queryFailed ("no such column: " ++ column))
  | some c =>
    let change := match value with
      | some v => some (c.set v)
      | none => c.clear
    if rows.isEmpty then .ok []
    else
      match change with
      | none => .error (.queryFailed
          ("NOT NULL constraint failed: " ++ constraints.table ++ "." ++ column))
      | some f =>
        let rows := rows.map f
        if !rows.all constraints.check then .error (.queryFailed constraints.checkText)
        else if (rows.map constraints.key).eraseDups.length < rows.length then
          .error (.duplicate constraints.keyName "unknown")
        else .ok rows

end Column

namespace Store

open Column (Constraints)

def gardenConstraints : Constraints GardenRow String :=
  { table := gardensTable, keyName := "gardens.name", key := GardenRow.name }

def userConstraints : Constraints UserRow String :=
  { table := usersTable, keyName := "users.username", key := UserRow.username }

def shadowConstraints : Constraints ShadowRow (String × String) :=
  { table := shadowsTable, keyName := "remote_users.garden, remote_users.username",
    key := ShadowRow.key }

def jobConstraints : Constraints JobRow String :=
  { table := jobsTable, keyName := "jobs.id", key := JobRow.id
    check := fun row => row.status == "RUNNING" || row.status == "PAUSED"
    checkText := "CHECK constraint failed: status IN ('RUNNING', 'PAUSED')" }

def overwrite (store : Store) (table column : String) (value : Option String) :
    Except StoreError (Nat × Store) :=
  store.statement table fun t =>
    match table with
    | "gardens" => do
      let rows ← Column.overwrite gardenConstraints column (Column.gardens column) value t.gardens
      .ok (rows.length, { t with gardens := rows })
    | "users" => do
      let rows ← Column.overwrite userConstraints column (Column.users column) value t.users
      .ok (rows.length, { t with users := rows })
    | "remote_users" => do
      let rows ← Column.overwrite shadowConstraints column (Column.shadows column) value t.shadows
      .ok (rows.length, { t with shadows := rows })
    | "jobs" => do
      let rows ← Column.overwrite jobConstraints column (Column.jobs column) value t.jobs
      .ok (rows.length, { t with jobs := rows })
    | _ => .error (noTable table)

end Store

end Federation
