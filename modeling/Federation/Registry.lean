import Federation.Message
import Federation.Job

/-!
# What a garden does to others, and the gardens it knows

Everything that leaves a garden is an effect. A link carries operations to another garden; what it
answers may depend on all that has been done before. The registry holds the known gardens by name,
each with its link if there is one.
-/

namespace Federation

inductive SchedulerCall where
  | create (definition : JobDefinition)
  | pause (id : String)
  | resume (id : String)
  | remove (id : String)
  deriving Repr, BEq

inductive Effect where
  | request (garden : String) (operation : Operation) (wait : Option Duration)
  | publish (garden : String) (operation : Operation)
  | send (destination : String) (message : Message)
  | schedule (call : SchedulerCall)
  deriving Repr, BEq

abbrev History := List Effect

structure Link where
  connected : Bool
  request : History → Operation → Option Duration → Except Failure Response
  publish : History → Operation → Except Failure Unit

structure RegistryEntry where
  garden : Garden
  link : Option Link := none

/-- Sorted by name, each name once. -/
abbrev Registry := List (String × RegistryEntry)

namespace Registry

def get? (registry : Registry) (name : String) : Option RegistryEntry := registry.lookup name

def contains (registry : Registry) (name : String) : Bool := (registry.get? name).isSome

/-- Adds a garden in place of any entry under its name. -/
def register (registry : Registry) (garden : Garden) (link : Option Link) : Registry :=
  insertMember garden.name ⟨garden, link⟩ registry

def remove (registry : Registry) (name : String) : Registry :=
  registry.filter fun entry => entry.1 ≠ name

def names (registry : Registry) : List String := registry.map Prod.fst

def liveLink? (entry : RegistryEntry) : Option Link := entry.link.filter (·.connected)

end Registry

end Federation
