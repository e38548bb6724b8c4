import Federation.Role

/-!
# Users

A user is a local identity. Between gardens a user travels as a synced user, which may carry the
derived credential but never a plain password. A shadow records what a remote garden was last known
to hold for one user.
-/

namespace Federation

/-- The password is a derived credential, kept as it was derived. -/
structure User where
  username : String
  password : Option String := none
  roleAssignments : List RoleAssignment := []
  deriving DecidableEq, Repr

structure SyncedUser where
  username : String
  roleAssignments : List RoleAssignment := []
  hashedPassword : Option String := none
  deriving DecidableEq, Repr

structure Shadow where
  garden : String
  username : String
  roleAssignments : List RoleAssignment
  updatedAt : Instant
  deriving DecidableEq, Repr

namespace User

def decoder : Decoder User :=
  (Form.pure User.mk
    |>.both (.required "username" .string)
    |>.both (.optional "password" (.nullable .string) none)
    |>.both (.optional "role_assignments" (.list RoleAssignment.decoder) [])).decode "User"

def toDocument (user : User) : Document :=
  .object ([("username", .string user.username)] ++
    Document.ofPresent "password" (user.password.map .string) ++
    [("role_assignments", RoleAssignment.listDocument user.roleAssignments)])

/-- What events report: no credential. -/
def toSynced (user : User) : SyncedUser :=
  { username := user.username, roleAssignments := user.roleAssignments }

/-- What a push carries, so that the receiver keeps the same credential. -/
def toSyncedWithCredential (user : User) : SyncedUser :=
  { user.toSynced with hashedPassword := user.password }

/-- The user with only the assignments that `garden` may see, in their order. -/
def filteredFor (user : User) (garden : Garden) : User :=
  { user with
    roleAssignments := user.roleAssignments.filter fun a => a.domain.isRelevantTo garden }

instance : Coded User := ⟨decoder, toDocument⟩

end User

namespace SyncedUser

def decoder : Decoder SyncedUser :=
  (Form.pure SyncedUser.mk
    |>.both (.required "username" .string)
    |>.both (.optional "role_assignments" (.list RoleAssignment.decoder) [])
    |>.both (.optional "hashed_password" (.nullable .string) none)).decode "SyncedUser"

def toDocument (user : SyncedUser) : Document :=
  .object ([("username", .string user.username),
    ("role_assignments", RoleAssignment.listDocument user.roleAssignments)] ++
    Document.ofPresent "hashed_password" (user.hashedPassword.map .string))

def ofJson (value : Json) : Except ValidationError SyncedUser :=
  (decoder.ofJson value).mapError fun e => .invalidFormat "serialized_user" e.message

instance : Coded SyncedUser := ⟨decoder, toDocument⟩

end SyncedUser

namespace Shadow

def decoder : Decoder Shadow :=
  (Form.pure Shadow.mk
    |>.both (.required "garden" .string)
    |>.both (.required "username" .string)
    |>.both (.required "role_assignments" (.list RoleAssignment.decoder))
    |>.both (.required "updated_at" .instant)).decode "RemoteUser"

def toDocument (shadow : Shadow) : Document :=
  .object [
    ("garden", .string shadow.garden),
    ("username", .string shadow.username),
    ("role_assignments", RoleAssignment.listDocument shadow.roleAssignments),
    ("updated_at", .string (Rfc3339.write shadow.updatedAt))]

instance : Coded Shadow := ⟨decoder, toDocument⟩

end Shadow

end Federation
