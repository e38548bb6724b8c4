import Federation.Failure.Store
import Federation.Json.Decoder

/-!
# The document store

Four tables of text columns; nested documents are kept as JSON text. A store has its tables once it
has been migrated, and answers until it is closed. Every function on a store is one statement, which
either succeeds as a whole or leaves the store as it is.
-/

namespace Federation

structure GardenRow where
  name : String
  connectionType : Option String
  namespaces : String
  deriving DecidableEq, Repr

structure UserRow where
  username : String
  password : Option String
  roleAssignments : String
  deriving DecidableEq, Repr

structure ShadowRow where
  garden : String
  username : String
  roleAssignments : String
  updatedAt : String
  deriving DecidableEq, Repr

structure JobRow where
  id : String
  name : String
  triggerType : String
  trigger : String
  requestTemplate : String
  status : String
  createdAt : String
  deriving DecidableEq, Repr

structure Tables where
  gardens : List GardenRow := []
  users : List UserRow := []
  shadows : List ShadowRow := []
  jobs : List JobRow := []
  deriving DecidableEq, Repr

/-- Without tables a store has not been migrated. -/
structure Store where
  tables : Option Tables := some {}
  isOpen : Bool := true
  deriving DecidableEq, Repr

/-- Replaces the row with the same key, or adds the row at the end. -/
def upsertBy [DecidableEq κ] (key : α → κ) (row : α) : List α → List α
  | [] => [row]
  | r :: rest => if key r = key row then row :: rest else r :: upsertBy key row rest

section Upsert

variable [DecidableEq κ] {key : α → κ} {row : α} {rows : List α}

theorem find?_upsertBy_self :
    (upsertBy key row rows).find? (fun r => key r = key row) = some row := by
  induction rows with
  | nil => simp [upsertBy]
  | cons r rest ih =>
    by_cases h : key r = key row
    · simp [upsertBy, h]
    · simp [upsertBy, h, ih]

theorem find?_upsertBy_of_ne {k : κ} (hk : k ≠ key row) :
    (upsertBy key row rows).find? (fun r => key r = k) = rows.find? (fun r => key r = k) := by
  induction rows with
  | nil => simp [upsertBy, Ne.symm hk]
  | cons r rest ih =>
    by_cases h : key r = key row
    · simp [upsertBy, h, Ne.symm hk]
    · simp [upsertBy, h, List.find?_cons, ih]

end Upsert

namespace Store

def noTable (table : String) : StoreError := .queryFailed ("no such table: " ++ table)

/-- Runs one statement that names the given table. -/
def statement (store : Store) (table : String) (run : Tables → Except StoreError (α × Tables)) :
    Except StoreError (α × Store) :=
  if !store.isOpen then .error (.ofFault .poolClosed)
  else
    match store.tables with
    | none => .error (noTable table)
    | some tables => do
      let (value, tables) ← run tables
      .ok (value, { store with tables := some tables })

/-- Runs a statement that changes nothing. -/
def query (store : Store) (table : String) (run : Tables → Except StoreError α) :
    Except StoreError α :=
  (store.statement table fun tables => do .ok (← run tables, tables)).map Prod.fst

def document (decoder : Decoder α) (text : String) : Except StoreError α :=
  (decoder.ofText text).mapError fun e => .invalidDocument e.message

def undecodable (column : String) : StoreError :=
  .ofFault (.undecodable (Text.quoted column))

/-! The store as a whole -/

def migrations : Nat := 1

def migrate (store : Store) : Except StoreError Store :=
  if store.isOpen then .ok { store with tables := some (store.tables.getD {}) }
  else .error (.migrationFailed
    "while executing migrations: attempted to acquire a connection on a closed pool")

/-- The number of migrations, and how many of them are seen to have been applied. -/
def migrationStatus (store : Store) : Nat × Nat :=
  (migrations, if store.isOpen && store.tables.isSome then migrations else 0)

def isHealthy (store : Store) : Bool := store.isOpen

def close (store : Store) : Store := { store with isOpen := false }

end Store

end Federation
