import Federation.Garden

/-!
# Operations

An operation is a command that is routed to a garden or runs locally. Its type travels as text; an
unknown type is only noticed when the operation is routed.
-/

namespace Federation

inductive OperationKind where
  | userSync
  | jobCreate
  | jobRead
  | jobReadAll
  | jobUpdate
  | jobPause
  | jobResume
  | jobDelete
  deriving DecidableEq, Repr

namespace OperationKind

def name : OperationKind → String
  | .userSync => "USER_SYNC"
  | .jobCreate => "JOB_CREATE"
  | .jobRead => "JOB_READ"
  | .jobReadAll => "JOB_READ_ALL"
  | .jobUpdate => "JOB_UPDATE"
  | .jobPause => "JOB_PAUSE"
  | .jobResume => "JOB_RESUME"
  | .jobDelete => "JOB_DELETE"

def all : List OperationKind :=
  [.userSync, .jobCreate, .jobRead, .jobReadAll, .jobUpdate, .jobPause, .jobResume, .jobDelete]

theorem mem_all (kind : OperationKind) : kind ∈ all := by cases kind <;> decide

def ofName? (text : String) : Option OperationKind := all.find? fun kind => kind.name == text

theorem ofName?_name (kind : OperationKind) : ofName? kind.name = some kind := by
  cases kind <;> decide

theorem ofName?_eq_some {kind : OperationKind} : ofName? text = some kind ↔ text = kind.name := by
  constructor
  · intro found
    have same := List.find?_some (p := fun kind : OperationKind => kind.name == text) found
    exact (beq_iff_eq.mp same).symm
  · rintro rfl
    exact ofName?_name kind

theorem name_inj {kind other : OperationKind} : kind.name = other.name ↔ kind = other := by
  rw [← ofName?_eq_some, ofName?_name, Option.some.injEq, eq_comm]

def expectsReply (kind : OperationKind) : Bool := kind != .userSync

end OperationKind

structure Operation where
  operationType : String
  targetGardenName : Option String := none
  args : List Json := []
  kwargs : List (String × Json) := []
  deriving Repr, BEq

namespace Operation

def ofKind (kind : OperationKind) : Operation := { operationType := kind.name }

def withTarget (operation : Operation) (garden : String) : Operation :=
  { operation with targetGardenName := some garden }

def withArg (operation : Operation) (value : Json) : Operation :=
  { operation with args := operation.args ++ [value] }

def withKwarg (operation : Operation) (key : String) (value : Json) : Operation :=
  { operation with kwargs := insertMember key value operation.kwargs }

def kind? (operation : Operation) : Option OperationKind :=
  OperationKind.ofName? operation.operationType

theorem kind?_eq_some {operation : Operation} {kind : OperationKind} :
    operation.kind? = some kind ↔ operation.operationType = kind.name :=
  OperationKind.ofName?_eq_some

theorem kind?_eq_none {operation : Operation} :
    operation.kind? = none ↔ ∀ kind : OperationKind, operation.operationType ≠ kind.name := by
  rw [Option.eq_none_iff_forall_ne_some]
  exact forall_congr' fun kind => not_congr kind?_eq_some

/-- The target, where an empty name is none. -/
def target? (operation : Operation) : Option String :=
  operation.targetGardenName.filter (· ≠ "")

def isLocalTo (operation : Operation) (garden : String) : Bool :=
  match operation.target? with
  | none => true
  | some target => target == garden

def kwarg? (operation : Operation) (key : String) : Option Json := operation.kwargs.lookup key

/-- The named argument if it is a string, else the first positional one if that is a string. -/
def stringParam? (operation : Operation) (key : String) : Option String :=
  ((operation.kwarg? key).bind Json.string?).orElse fun _ =>
    operation.args.head?.bind Json.string?

def waitTimeoutKey : String := "wait_timeout"

/-- How long to wait for a reply; without a positive number that fits, for ever. -/
def waitTimeout? (operation : Operation) : Option Duration := do
  let seconds ← (← operation.kwarg? waitTimeoutKey).double?
  if seconds.isPositive then Duration.ofDouble? seconds else none

def withoutWaitTimeout (operation : Operation) : Operation :=
  { operation with kwargs := operation.kwargs.filter fun m => m.1 ≠ waitTimeoutKey }

def decoder : Decoder Operation :=
  (Form.pure Operation.mk
    |>.both (.required "operation_type" .string)
    |>.both (.optional "target_garden_name" (.nullable .string) none)
    |>.both (.optional "args" (.list .json) [])
    |>.both (.optional "kwargs" (.dictionary .json) [])).decode "Operation"

def toDocument (operation : Operation) : Document :=
  .object ([("operation_type", .string operation.operationType)] ++
    Document.ofPresent "target_garden_name" (operation.targetGardenName.map .string) ++
    [("args", .array (operation.args.map Json.toDocument)),
     ("kwargs", .object (operation.kwargs.map fun (k, v) => (k, v.toDocument)))])

instance : Coded Operation := ⟨decoder, toDocument⟩

end Operation

end Federation
