import Federation.Garden

/-!
# Roles and where they apply

A role is granted within a domain. A garden gets to see an assignment whose domain is global, or
names one of the scopes the garden owns.
-/

namespace Federation

structure Role where
  name : String
  permissions : List String := []
  deriving DecidableEq, Repr

inductive RoleDomain where
  | global
  | garden (name : String)
  | system (scope : String)
  deriving DecidableEq, Repr

structure RoleAssignment where
  role : Role
  domain : RoleDomain
  deriving DecidableEq, Repr

namespace Role

def decoder : Decoder Role :=
  (Form.pure Role.mk
    |>.both (.required "name" .string)
    |>.both (.optional "permissions" (.list .string) [])).decode "Role"

def toDocument (role : Role) : Document :=
  .object [("name", .string role.name), ("permissions", .ofTexts role.permissions)]

instance : Coded Role := ⟨decoder, toDocument⟩

end Role

namespace RoleDomain

def isRelevantTo (domain : RoleDomain) (garden : Garden) : Bool :=
  match domain with
  | .global => true
  | .garden name => garden.namespaces.contains name
  | .system scope => garden.namespaces.contains scope

/-- The identifier that a scope cannot do without. -/
def identifier (scope key : String) (identifiers : List (String × String)) :
    Except ValidationError String :=
  match identifiers.lookup key with
  | some value => .ok value
  | none => .error (.invalidFormat "domain.identifiers" (scope ++ " scope requires '" ++ key ++ "'"))

def ofScope (scope : String) (identifiers : List (String × String)) :
    Except ValidationError RoleDomain :=
  match scope with
  | "Global" => .ok .global
  | "Garden" => (identifier scope "name" identifiers).map .garden
  | "System" => (identifier scope "namespace" identifiers).map .system
  | _ => .error (.notAllowed "domain.scope" ["Global", "Garden", "System"])

/-- A scope and its identifiers; identifiers that the scope has no use for are dropped. -/
def decoder : Decoder RoleDomain :=
  (Form.pure Prod.mk
    |>.both (.required "scope" .string)
    |>.both (.optional "identifiers" (.dictionary .string) [])).decode "RawDomain"
  |>.andThen fun (scope, identifiers) => (ofScope scope identifiers).mapError .refused

def scope : RoleDomain → String
  | .global => "Global"
  | .garden _ => "Garden"
  | .system _ => "System"

def identifiers : RoleDomain → List (String × String)
  | .global => []
  | .garden name => [("name", name)]
  | .system scope => [("namespace", scope)]

theorem ofScope_scope (domain : RoleDomain) :
    ofScope domain.scope domain.identifiers = .ok domain := by
  cases domain <;> rfl

def toDocument (domain : RoleDomain) : Document :=
  .object [
    ("scope", .string domain.scope),
    ("identifiers", .object (domain.identifiers.map fun (k, v) => (k, .string v)))]

instance : Coded RoleDomain := ⟨decoder, toDocument⟩

end RoleDomain

namespace RoleAssignment

def decoder : Decoder RoleAssignment :=
  (Form.pure RoleAssignment.mk
    |>.both (.required "role" Role.decoder)
    |>.both (.required "domain" RoleDomain.decoder)).decode "RoleAssignment"

def toDocument (assignment : RoleAssignment) : Document :=
  .object [("role", assignment.role.toDocument), ("domain", assignment.domain.toDocument)]

def listDocument (assignments : List RoleAssignment) : Document :=
  .array (assignments.map toDocument)

instance : Coded RoleAssignment := ⟨decoder, toDocument⟩

end RoleAssignment

end Federation
