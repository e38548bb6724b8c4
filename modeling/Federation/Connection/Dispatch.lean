import Federation.Connection.Basic
import Federation.Text.Utf8

/-!
# What arrives on a session

A reply goes straight to the one who waits for it and never to the listener, so a listener that
waits for a reply itself does not hold it up. Operations and events go to the listener in their
order. Everything else is passed over.
-/

namespace Federation

inductive Incoming where
  | text (content : String)
  | binary (content : List UInt8)
  | control
  | close
  | broken (failure : Failure)
  deriving DecidableEq, Repr

namespace Incoming

/-- The text of a message that may hold a frame. -/
def content? : Incoming → Option String
  | .text content => some content
  | .binary content => some (Text.ofUtf8 content)
  | _ => none

end Incoming

namespace Message

/-- The message in a frame, where the first of a repeated header counts. -/
def ofFrame (frame : Frame) : Message := ⟨.ofPairs frame.headers, frame.body⟩

end Message

namespace Connection

/-- Where a message goes: to its waiter, to the listener, or nowhere. -/
def deliver (connection : Connection) (message : Message) : Connection :=
  if message.isReply then
    match message.header? Headers.correlationId with
    | some id => { connection with pending := (connection.pending.complete id message).2 }
    | none => connection
  else { connection with inbound := connection.inbound ++ [message] }

def dispatch (connection : Connection) (frame : Frame) : Connection :=
  if frame.command = .message then connection.deliver (.ofFrame frame) else connection

def receive (connection : Connection) (incoming : Incoming) : Connection :=
  match incoming with
  | .close => connection.lose .disconnected
  | .broken failure => connection.lose failure
  | incoming =>
    match incoming.content?.map Frame.decode with
    | some (.ok (some frame)) => connection.dispatch frame
    | _ => connection

def receiveAll (connection : Connection) : List Incoming → Connection
  | [] => connection
  | incoming :: rest =>
    if connection.isConnected then (connection.receive incoming).receiveAll rest else connection

end Connection

end Federation
