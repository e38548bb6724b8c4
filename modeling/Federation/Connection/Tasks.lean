import Federation.Connection.Basic

/-!
# The tasks of a connection

Connecting, reading and disconnecting run side by side and share the stored session, the state that
is shown and the table of those that wait for replies. A step here is one that no other comes
between, and a run is any list of steps that can be taken one after the other.

Connecting keeps the place of the session to itself from its first step to its last. The reader of
a new session runs before the session is stored.
-/

namespace Federation

inductive ReaderStage where
  | reading
  | ended
  /-- The table of those that wait has been cleared. -/
  | cleared
  /-- The connection has been shown as down; the reader is gone. -/
  | gone
  deriving DecidableEq, Repr

inductive ConnectStage where
  /-- Waits until the reader of the session before is gone. -/
  | joining (reader : Nat)
  | ready
  | asking
  | opened (reader : Nat)
  | stored
  deriving DecidableEq, Repr

inductive DisconnectStage where
  | joining (reader : Nat)
  | ready
  | shown
  | done
  deriving DecidableEq, Repr

structure ConnectionTasks where
  state : ConnectionState := .disconnected
  /-- The reader of the stored session. -/
  session : Option Nat := none
  /-- The readers there have been, by number. -/
  readers : List ReaderStage := []
  connecting : Option ConnectStage := none
  disconnecting : List DisconnectStage := []
  deriving DecidableEq, Repr

inductive TaskStep where
  | connect
  | goOn
  /-- There is no endpoint to connect to. -/
  | refuse
  | fail
  /-- A session closes, breaks or is told to stop. -/
  | endReading (reader : Nat)
  | cleanUp (reader : Nat)
  | disconnect
  | leave (index : Nat)
  deriving DecidableEq, Repr

namespace ConnectionTasks

def isGone (tasks : ConnectionTasks) (reader : Nat) : Bool := tasks.readers[reader]? == some .gone

/-- Nothing but readers that read is under way. -/
def isQuiet (tasks : ConnectionTasks) : Bool :=
  tasks.connecting.isNone && tasks.disconnecting.all (· == .done) &&
    tasks.readers.all fun stage => stage == .reading || stage == .gone

def isAlive (tasks : ConnectionTasks) : Bool :=
  match tasks.session with
  | none => false
  | some reader => tasks.readers[reader]? == some .reading

def beginConnect (tasks : ConnectionTasks) : ConnectionTasks :=
  match tasks.session with
  | none => { tasks with connecting := some .ready }
  | some reader =>
    if tasks.state = .connected then tasks
    else { tasks with session := none, connecting := some (.joining reader) }

def continueConnect (tasks : ConnectionTasks) : ConnectStage → Option ConnectionTasks
  | .joining reader =>
    if tasks.isGone reader then some { tasks with connecting := some .ready } else none
  | .ready => some { tasks with state := .connecting, connecting := some .asking }
  | .asking =>
    some { tasks with
      readers := tasks.readers ++ [.reading]
      connecting := some (.opened tasks.readers.length) }
  | .opened reader => some { tasks with session := some reader, connecting := some .stored }
  | .stored => some { tasks with state := .connected, connecting := none }

def cleanUp (tasks : ConnectionTasks) (reader : Nat) : Option ConnectionTasks :=
  match tasks.readers[reader]? with
  | some .ended => some { tasks with readers := tasks.readers.set reader .cleared }
  | some .cleared =>
    some { tasks with state := .disconnected, readers := tasks.readers.set reader .gone }
  | _ => none

def beginDisconnect (tasks : ConnectionTasks) : ConnectionTasks :=
  let stage := match tasks.session with
    | none => .ready
    | some reader => .joining reader
  { tasks with session := none, disconnecting := tasks.disconnecting ++ [stage] }

def continueDisconnect (tasks : ConnectionTasks) (index : Nat) : Option ConnectionTasks :=
  let move := fun stage => { tasks with disconnecting := tasks.disconnecting.set index stage }
  match tasks.disconnecting[index]? with
  | some (.joining reader) => if tasks.isGone reader then some (move .ready) else none
  | some .ready => some { move .shown with state := .disconnected }
  | some .shown => some (move .done)
  | _ => none

def step (tasks : ConnectionTasks) : TaskStep → Option ConnectionTasks
  | .connect => if tasks.connecting.isNone then some tasks.beginConnect else none
  | .goOn => tasks.connecting.bind tasks.continueConnect
  | .refuse =>
    if tasks.connecting = some .ready then some { tasks with connecting := none } else none
  | .fail =>
    if tasks.connecting = some .asking then
      some { tasks with state := .disconnected, connecting := none }
    else none
  | .endReading reader =>
    if tasks.readers[reader]? = some .reading then
      some { tasks with readers := tasks.readers.set reader .ended }
    else none
  | .cleanUp reader => tasks.cleanUp reader
  | .disconnect => if tasks.connecting.isNone then some tasks.beginDisconnect else none
  | .leave index => tasks.continueDisconnect index

def run (tasks : ConnectionTasks) (steps : List TaskStep) : Option ConnectionTasks :=
  steps.foldlM step tasks

end ConnectionTasks

end Federation
