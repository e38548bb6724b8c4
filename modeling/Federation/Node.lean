import Federation.Registry
import Federation.Store.Gardens
import Federation.Store.Jobs
import Federation.Store.Shadows

/-!
# A running garden

The state of one garden: its name, the kinds of operation it handles, the gardens it knows, its
store, and the record of what it has done. An action may fail; what it did before it failed stays
done.
-/

namespace Federation

/-- Where ids, password hashes and times come from; each reading is numbered. -/
structure Supply where
  id : Nat → String
  hash : Nat → String → String
  now : Nat → Instant

/-- The way out for replies and events. -/
structure Sink where
  connected : Bool := true
  default : Option String := none
  deriving DecidableEq, Repr

/-- What runs the jobs: the store itself, or a scheduler outside. -/
inductive Scheduler where
  | store
  | external (answer : History → SchedulerCall → Except Failure Job)

structure Node where
  name : String
  handlers : List OperationKind := []
  registry : Registry := []
  scheduler : Scheduler := .store
  sink : Sink := {}
  store : Store := {}
  supply : Supply
  readings : Nat := 0
  effects : History := []
  events : List GardenEvent := []
  logs : List String := []

abbrev Action := ExceptT Failure (StateM Node)

namespace Action

def emit (effect : Effect) : Action Unit :=
  modify fun node => { node with effects := node.effects ++ [effect] }

def log (line : String) : Action Unit :=
  modify fun node => { node with logs := node.logs ++ [line] }

def announce (event : GardenEvent) : Action Unit :=
  modify fun node => { node with events := node.events ++ [event] }

def fresh (read : Supply → Nat → α) : Action α :=
  modifyGet fun node =>
    (read node.supply node.readings, { node with readings := node.readings + 1 })

def query (ask : Store → Except StoreError α) : Action α := do
  match ask (← get).store with
  | .ok value => pure value
  | .error e => throw (.ofStore e)

def statement (run : Store → Except StoreError (α × Store)) : Action α := do
  match run (← get).store with
  | .ok (value, store) =>
    modify fun node => { node with store }
    pure value
  | .error e => throw (.ofStore e)

def change (run : Store → Except StoreError Store) : Action Unit :=
  statement fun store => (run store).map fun store => ((), store)

def refuse (error : ValidationError) : Action α := throw (.validation error)

def ofExcept (result : Except ValidationError α) : Action α :=
  match result with
  | .ok value => pure value
  | .error e => refuse e

/-- Carries on after a failure with what `recover` makes of it. -/
def settle (action : Action α) (recover : Failure → Action α) : Action α := tryCatch action recover

def run (action : Action α) (node : Node) : Except Failure α × Node :=
  (ExceptT.run action).run node

theorem run_pure (value : α) (node : Node) : run (pure value) node = (.ok value, node) := rfl

theorem run_throw (failure : Failure) (node : Node) :
    run (throw failure : Action α) node = (.error failure, node) := rfl

theorem run_bind (action : Action α) (next : α → Action β) (node : Node) :
    run (action >>= next) node =
      match run action node with
      | (.ok value, node) => run (next value) node
      | (.error failure, node) => (.error failure, node) := by
  show (ExceptT.bind action next) node = _
  simp only [ExceptT.bind, ExceptT.mk, ExceptT.bindCont, bind, StateT.bind, run, ExceptT.run,
    StateT.run]
  rcases action node with ⟨_ | _, _⟩ <;> rfl

theorem run_get (node : Node) : run (get : Action Node) node = (.ok node, node) := rfl

theorem run_query (ask : Store → Except StoreError α) (node : Node) :
    (query ask).run node =
      match ask node.store with
      | .ok value => (.ok value, node)
      | .error e => (.error (.ofStore e), node) := by
  rw [query, run_bind, run_get]
  rcases h : ask node.store with e | value <;> simp only [h] <;> rfl

theorem run_statement (change : Store → Except StoreError (α × Store)) (node : Node) :
    (statement change).run node =
      match change node.store with
      | .ok (value, store) => (.ok value, { node with store })
      | .error e => (.error (.ofStore e), node) := by
  rw [statement, run_bind, run_get]
  rcases h : change node.store with e | ⟨value, store⟩ <;> simp only [h] <;> rfl

end Action

end Federation
