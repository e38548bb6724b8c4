import Federation.Json.Basic

/-!
# TOML values

The values of a configuration file, and how a file's statements build them. Tables remember how they
came about, because a table may be opened by a header only once and only if no dotted key made it.
-/

namespace Federation

/-- Dates and times are checked and then kept as text; no setting is one. -/
inductive Toml where
  | string (value : String)
  | integer (value : Int)
  | float (value : Double)
  | boolean (value : Bool)
  | dateTime (text : String)
  | array (items : List Toml)
  | table (entries : List (String × Toml))
  deriving Repr, Inhabited

namespace Toml

/-- How a table came about: `path` tables stand only for the way to another header. -/
inductive Origin where
  | path
  | dotted
  | header
  deriving DecidableEq, Repr

inductive Node where
  | value (value : Toml)
  | table (origin : Origin) (entries : List (String × Node))
  | tables (items : List (List (String × Node)))
  deriving Inhabited

abbrev Entries := List (String × Node)

namespace Entries

def replace (key : String) (node : Node) : Entries → Entries
  | [] => [(key, node)]
  | (k, n) :: rest => if k = key then (k, node) :: rest else (k, n) :: replace key node rest

/-- Applies a change to the table at the end of a path. Tables on the way are made as `made`; with
`dotted` keys the way may not lead through a table that has a header. -/
def modifyAt (dotted : Bool) (change : Origin → Entries → Option Entries) :
    List String → Origin → Entries → Option Entries
  | [], origin, entries => change origin entries
  | key :: path, _, entries =>
    match entries.lookup key with
    | none => do
      let made := if dotted then Origin.dotted else Origin.path
      let inner ← modifyAt dotted change path made []
      some (replace key (.table made inner) entries)
    | some (.value _) => none
    | some (.tables items) => do
      let inner ← modifyAt dotted change path .header (items.getLast?.getD [])
      some (replace key (.tables (items.dropLast ++ [inner])) entries)
    | some (.table origin inner) =>
      if dotted && origin == .header then none
      else do
        let inner ← modifyAt dotted change path origin inner
        some (replace key (.table origin inner) entries)

/-- Sets a key that is not there yet. A path of dotted keys has to end in a table that such keys
made. -/
def assign (path : List String) (key : String) (value : Toml) (entries : Entries) : Option Entries :=
  modifyAt true (fun origin inner =>
    if (origin == .dotted) == path.isEmpty then none
    else if (inner.lookup key).isSome then none
    else some (inner ++ [(key, .value value)])) path .header entries

/-- Opens a table; one that so far only stood for a way is taken over. -/
def openTable (path : List String) (key : String) (entries : Entries) : Option Entries :=
  modifyAt false (fun _ inner =>
    match inner.lookup key with
    | none => some (inner ++ [(key, .table .header [])])
    | some (.table .path old) => some (replace key (.table .header old) inner)
    | some _ => none) path .header entries

/-- Opens a new table at the end of an array of tables. -/
def openItem (path : List String) (key : String) (entries : Entries) : Option Entries :=
  modifyAt false (fun _ inner =>
    match inner.lookup key with
    | none => some (inner ++ [(key, .tables [[]])])
    | some (.tables items) => some (replace key (.tables (items ++ [[]])) inner)
    | some _ => none) path .header entries

end Entries

mutual
def Node.toToml : Node → Toml
  | .value v => v
  | .table _ entries => .table (entriesToToml entries)
  | .tables items => .array (itemsToToml items)
def entriesToToml : List (String × Node) → List (String × Toml)
  | [] => []
  | (k, n) :: rest => (k, n.toToml) :: entriesToToml rest
def itemsToToml : List (List (String × Node)) → List Toml
  | [] => []
  | entries :: rest => .table (entriesToToml entries) :: itemsToToml rest
end

mutual
/-- The value as a document; a date counts as an object, as no setting takes either. -/
def toDocument : Toml → Document
  | .string s => .string s
  | .integer n => .number (.int n)
  | .float d => .number (.real d)
  | .boolean b => .bool b
  | .dateTime _ => .object []
  | .array items => .array (toDocumentItems items)
  | .table entries => .object (toDocumentMembers entries)
def toDocumentItems : List Toml → List Document
  | [] => []
  | v :: rest => v.toDocument :: toDocumentItems rest
def toDocumentMembers : List (String × Toml) → List (String × Document)
  | [] => []
  | (k, v) :: rest => (k, v.toDocument) :: toDocumentMembers rest
end

end Toml

end Federation
