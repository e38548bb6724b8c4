import Federation.Node
import Federation.Validation

/-!
# User synchronisation

A push sends every user to every remote garden, with the roles that garden may see. An import takes
such a list in record by record and then pushes on. Events of other gardens update the shadows of
their users.
-/

namespace Federation.Users

open Federation.Action

/-- What an update changes; a password is plain and is hashed before it is stored. -/
structure Patch where
  password : Option String := none
  roleAssignments : Option (List RoleAssignment) := none
  deriving DecidableEq, Repr

def hash (plain : String) : Action String := fresh fun supply n => supply.hash n plain

def create (username : String) (password : Option String)
    (roleAssignments : List RoleAssignment) : Action User := do
  ofExcept (validateUsername username)
  let password ← password.mapM hash
  let user : User := { username, password, roleAssignments }
  change fun store => store.putUser user
  pure user

/-- Changes a user, stores it and tells the other gardens. A credential that is given hashed wins
over a plain password. -/
def update (user : User) (patch : Patch) (hashed : Option String) : Action User := do
  let roleAssignments := patch.roleAssignments.getD user.roleAssignments
  let password ← match hashed, patch.password with
    | some credential, _ => pure (some credential)
    | none, some plain => some <$> hash plain
    | none, none => pure user.password
  let user : User := { username := user.username, password, roleAssignments }
  change fun store => store.putUser user
  let now ← fresh Supply.now
  announce (.userUpdated (← get).name user.toSynced now)
  pure user

def usersKey : String := "serialized_users"

/-- The operation that carries `users` to a garden, each with the roles the garden may see. -/
def syncOperation (users : List User) (garden : Garden) : Operation :=
  let synced := users.map fun user => (user.filteredFor garden).toSyncedWithCredential
  ((Operation.ofKind .userSync).withTarget garden.name).withKwarg usersKey
    (.array (synced.map fun user => user.toDocument.toJson))

/-- Sends the users to one garden; that it cannot be reached is only noted. -/
def pushTo (route : Operation → Action Response) (users : List User) (garden : Garden) :
    Action Unit :=
  settle (discard (route (syncOperation users garden))) fun _ => log "User sync not sent"

/-- Sends every user to every remote garden; `route` carries an operation to its target. -/
def push (route : Operation → Action Response) : Action Unit := do
  let users ← query Store.users
  let gardens ← query Store.remoteGardens
  gardens.forM (pushTo route users)

/-- Takes one record in. A user that is not here yet is only created with assignments. -/
def importRecord (record : Json) : Action Unit := do
  let synced ← ofExcept (SyncedUser.ofJson record)
  ofExcept (validateUsername synced.username)
  let patch : Patch := { roleAssignments := some synced.roleAssignments }
  match ← query fun store => store.user? synced.username with
  | some user => discard (update user patch synced.hashedPassword)
  | none =>
    if synced.roleAssignments.isEmpty then pure ()
    else
      let user : User := { username := synced.username }
      change fun store => store.putUser user
      discard (update user patch synced.hashedPassword)

/-- The name that a record gives, whatever else is wrong with it. -/
def nameIn (record : Json) : String :=
  ((record.get? "username").bind Json.string?).getD "<unknown>"

/-- Takes one record in; that it is refused is only noted. -/
def tryImport (record : Json) : Action Unit :=
  settle (importRecord record) fun failure =>
    log ("Failed to import user " ++ nameIn record ++ " due to error: " ++ failure.message)

def sync (route : Operation → Action Response) (records : List Json) : Action Unit := do
  records.forM tryImport
  push route

/-- Whether the shadow that a garden left of a user holds the assignments that the user has for that
garden. -/
def isSynced (user : User) (garden : Garden) : Action Bool := do
  match ← query fun store => store.shadow? garden.name user.username with
  | none => pure false
  | some shadow => pure (shadow.roleAssignments == (user.filteredFor garden).roleAssignments)

def absorb (event : GardenEvent) : Action Unit :=
  match event.payload with
  | .userUpdated update =>
    change fun store => store.putShadow {
      garden := update.garden, username := update.user.username
      roleAssignments := update.user.roleAssignments, updatedAt := update.timestamp }

def handleEvent (event : GardenEvent) : Action Unit := do
  if event.garden = (← get).name then pure ()
  else
    settle (absorb event) fun failure =>
      log ("Error handling " ++ event.name ++ " event from garden " ++ event.garden ++ ": " ++
        failure.message)

/-- The users that an operation carries, named or as its first positional argument. -/
def recordsOf (operation : Operation) : Option (List Json) :=
  ((operation.kwarg? usersKey).orElse fun _ => operation.args.head?).bind Json.array?

def handle (route : Operation → Action Response) (operation : Operation) : Action Response :=
  match recordsOf operation with
  | none => refuse (.required usersKey)
  | some records => do
    sync route records
    pure .ack

end Federation.Users
