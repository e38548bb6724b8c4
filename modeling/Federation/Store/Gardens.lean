import Federation.Garden
import Federation.Store.Basic

/-!
# Stored gardens

Gardens are kept by name and listed in the order of their names.
-/

namespace Federation

namespace GardenRow

def ofGarden (garden : Garden) : GardenRow :=
  { name := garden.name
    connectionType := garden.connectionType.map ConnectionType.name
    namespaces := (Document.ofTexts garden.namespaces).text }

def kind? (row : GardenRow) : Except StoreError (Option ConnectionType) :=
  match row.connectionType with
  | none => .ok none
  | some text =>
    ((ConnectionType.ofName text).mapError fun e => .invalidDocument e.message).map some

def toGarden (row : GardenRow) : Except StoreError Garden := do
  let connectionType ← row.kind?
  let namespaces ← Store.document (Decoder.list .string |>.map sortTexts) row.namespaces
  .ok { name := row.name, connectionType, namespaces }

/-- Has a connection type, and another one than the garden that holds the record. -/
def isRemote (row : GardenRow) : Bool :=
  match row.connectionType with
  | none => false
  | some text => text != ConnectionType.own.name

end GardenRow

namespace Store

def gardensTable : String := "gardens"

def byName (rows : List GardenRow) : List GardenRow := rows.mergeSort fun a b => a.name ≤ b.name

def garden? (store : Store) (name : String) : Except StoreError (Option Garden) :=
  store.query gardensTable fun tables =>
    (tables.gardens.find? fun row => row.name = name).mapM GardenRow.toGarden

def gardens (store : Store) : Except StoreError (List Garden) :=
  store.query gardensTable fun tables => (byName tables.gardens).mapM GardenRow.toGarden

def remoteGardens (store : Store) : Except StoreError (List Garden) :=
  store.query gardensTable fun tables =>
    (byName (tables.gardens.filter GardenRow.isRemote)).mapM GardenRow.toGarden

def putGarden (store : Store) (garden : Garden) : Except StoreError Store :=
  (store.statement gardensTable fun tables =>
    .ok ((), { tables with
      gardens := upsertBy GardenRow.name (.ofGarden garden) tables.gardens })).map Prod.snd

end Store

end Federation
