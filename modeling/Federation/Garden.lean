import Federation.Json.Coded
import Federation.Text.Upper

/-!
# Gardens

A garden is a member of the federation: its name, how it is reached, and the scopes it owns.
-/

namespace Federation

/-- How a garden is reached; `own` marks the garden that holds the record. -/
inductive ConnectionType where
  | own
  | stomp
  | http
  deriving DecidableEq, Repr

namespace ConnectionType

def name : ConnectionType → String
  | .own => "LOCAL"
  | .stomp => "STOMP"
  | .http => "HTTP"

def names : List (String × ConnectionType) :=
  [("LOCAL", .own), ("STOMP", .stomp), ("HTTP", .http)]

def ofName (text : String) : Except ValidationError ConnectionType :=
  match names.lookup (Text.upper text) with
  | some kind => .ok kind
  | none => .error (.notAllowed "connection_type" (names.map Prod.fst))

theorem ofName_name (kind : ConnectionType) : ofName kind.name = .ok kind := by
  cases kind <;> rfl

def decoder : Decoder ConnectionType := .variant names

def toDocument (kind : ConnectionType) : Document := .string kind.name

instance : Coded ConnectionType := ⟨decoder, toDocument⟩

end ConnectionType

/-- Without a connection type a garden is configured but has never been connected. The namespaces
are sorted. -/
structure Garden where
  name : String
  connectionType : Option ConnectionType := none
  namespaces : List String := []
  deriving DecidableEq, Repr

namespace Garden

/-- Connected, and some other garden than the one that holds the record. -/
def isRemote (garden : Garden) : Bool :=
  match garden.connectionType with
  | none | some .own => false
  | some _ => true

def form : Form Garden :=
  (Form.pure Garden.mk
    |>.both (.required "name" .string)
    |>.both (.optional "connection_type" (.nullable ConnectionType.decoder) none)
    |>.both (.optional "namespaces" (Decoder.list .string |>.map sortTexts) []))

def decoder : Decoder Garden := form.decode "Garden"

def toDocument (garden : Garden) : Document :=
  .object [
    ("name", .string garden.name),
    ("connection_type", garden.connectionType.elim .null ConnectionType.toDocument),
    ("namespaces", .ofTexts garden.namespaces)]

instance : Coded Garden := ⟨decoder, toDocument⟩

end Garden

end Federation
