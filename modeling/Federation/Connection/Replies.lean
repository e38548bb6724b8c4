import Federation.Message

/-!
# Replies that are awaited

A request registers under a fresh id and leaves a slot for its reply. A reply goes to the slot of
its id and takes the id out of the table. Whoever waits may give up its slot; the id then stays in
the table until a reply, a cancellation or a clearance takes it out.
-/

namespace Federation

inductive ReplySlot where
  | empty
  | answered (message : Message)
  | closed
  deriving DecidableEq, Repr

structure PendingReplies where
  waiting : List String := []
  slots : List (String × ReplySlot) := []
  deriving DecidableEq, Repr

namespace PendingReplies

def setSlot (pending : PendingReplies) (id : String) (slot : ReplySlot) : PendingReplies :=
  { pending with
    slots := pending.slots.map fun entry => if entry.1 = id then (id, slot) else entry }

def register (pending : PendingReplies) (id : String) : PendingReplies :=
  { waiting := pending.waiting ++ [id], slots := pending.slots ++ [(id, .empty)] }

/-- Takes the id out of the table; a slot that is still empty will stay so. -/
def cancel (pending : PendingReplies) (id : String) : PendingReplies :=
  let remaining := { pending with waiting := pending.waiting.filter (· ≠ id) }
  if pending.waiting.contains id && pending.slots.lookup id == some .empty then
    remaining.setSlot id .closed
  else remaining

/-- Hands a message to the one who waits under `id`, and tells whether it was taken. -/
def complete (pending : PendingReplies) (id : String) (message : Message) :
    Bool × PendingReplies :=
  let remaining := { pending with waiting := pending.waiting.filter (· ≠ id) }
  if pending.waiting.contains id && pending.slots.lookup id == some .empty then
    (true, remaining.setSlot id (.answered message))
  else (false, remaining)

def clear (pending : PendingReplies) : PendingReplies :=
  pending.waiting.foldl cancel pending

def abandon (pending : PendingReplies) (id : String) : PendingReplies :=
  { pending with slots := pending.slots.filter fun entry => entry.1 ≠ id }

/-- Looks into the slot, and takes out what is there. -/
def poll (pending : PendingReplies) (id : String) : Option ReplySlot × PendingReplies :=
  match pending.slots.lookup id with
  | some (.answered message) => (some (.answered message), pending.setSlot id .closed)
  | slot => (slot, pending)

end PendingReplies

end Federation
