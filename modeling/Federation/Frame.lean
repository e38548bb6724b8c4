import Federation.Failure.Basic
import Federation.Text.Decimal
import Federation.Text.Split

/-!
# Frames

Messages travel to and from the broker as STOMP 1.2 frames: a command, header lines, a blank line, a
body and a NUL. Header names and values escape the characters that structure a frame, except in the
two frames that open a session. Reading takes both line endings, and where a declared length does
not fit the body ends at the first NUL.
-/

namespace Federation

inductive Command where
  | connect
  | connected
  | send
  | subscribe
  | unsubscribe
  | message
  | receipt
  | error
  | disconnect
  deriving DecidableEq, Repr

namespace Command

def name : Command → String
  | .connect => "CONNECT"
  | .connected => "CONNECTED"
  | .send => "SEND"
  | .subscribe => "SUBSCRIBE"
  | .unsubscribe => "UNSUBSCRIBE"
  | .message => "MESSAGE"
  | .receipt => "RECEIPT"
  | .error => "ERROR"
  | .disconnect => "DISCONNECT"

/-- The names by which a command is known; a session may also be opened with `STOMP`. -/
def ofName? : String → Option Command
  | "CONNECT" | "STOMP" => some .connect
  | "CONNECTED" => some .connected
  | "SEND" => some .send
  | "SUBSCRIBE" => some .subscribe
  | "UNSUBSCRIBE" => some .unsubscribe
  | "MESSAGE" => some .message
  | "RECEIPT" => some .receipt
  | "ERROR" => some .error
  | "DISCONNECT" => some .disconnect
  | _ => none

theorem ofName?_name (command : Command) : ofName? command.name = some command := by
  cases command <;> rfl

def escapesHeaders : Command → Bool
  | .connect | .connected => false
  | _ => true

end Command

/-- Headers keep their order; of a repeated name the first one counts. -/
structure Frame where
  command : Command
  headers : List (String × String) := []
  body : String := ""
  deriving DecidableEq, Repr

inductive FrameError where
  | unknownCommand (name : String)
  | noTerminator
  | malformedHeader (line : String)
  | invalidEscape (after : String)
  deriving DecidableEq, Repr

def FrameError.message : FrameError → String
  | .unknownCommand name => "Unknown STOMP command '" ++ name ++ "'"
  | .noTerminator => "STOMP frame has no header terminator"
  | .malformedHeader line => "Malformed STOMP header line '" ++ line ++ "'"
  | .invalidEscape after => "Invalid STOMP header escape '\\" ++ after ++ "'"

def FrameError.toFailure (error : FrameError) : Failure := .broker error.message

namespace Frame

def get? (frame : Frame) (name : String) : Option String := frame.headers.lookup name

def contentLength : String := "content-length"

def escapeChar : Char → List Char
  | '\\' => ['\\', '\\']
  | '\n' => ['\\', 'n']
  | '\r' => ['\\', 'r']
  | ':' => ['\\', 'c']
  | c => [c]

def escape (text : List Char) : List Char := text.flatMap escapeChar

def unescape : List Char → Except FrameError (List Char)
  | [] => .ok []
  | '\\' :: '\\' :: rest => (unescape rest).map ('\\' :: ·)
  | '\\' :: 'n' :: rest => (unescape rest).map ('\n' :: ·)
  | '\\' :: 'r' :: rest => (unescape rest).map ('\r' :: ·)
  | '\\' :: 'c' :: rest => (unescape rest).map (':' :: ·)
  | '\\' :: c :: _ => .error (.invalidEscape (String.singleton c))
  | ['\\'] => .error (.invalidEscape "")
  | c :: rest => (unescape rest).map (c :: ·)

/-- The length of the body is declared unless the body is empty or a length is given already. -/
def declaredLength (frame : Frame) : List (String × String) :=
  if frame.body = "" ∨ (frame.get? contentLength).isSome then []
  else [(contentLength, toString frame.body.utf8ByteSize)]

def encodeHeader (escapes : Bool) (header : String × String) : List Char :=
  if escapes then escape header.1.toList ++ ':' :: escape header.2.toList ++ ['\n']
  else header.1.toList ++ ':' :: header.2.toList ++ ['\n']

/-- The frame as text, with the NUL that ends it. -/
def encodeChars (frame : Frame) : List Char :=
  frame.command.name.toList ++ '\n' ::
    (frame.headers.flatMap (encodeHeader frame.command.escapesHeaders) ++
      (frame.declaredLength.flatMap (encodeHeader false) ++ '\n' :: (frame.body.toList ++ ['\x00'])))

def encode (frame : Frame) : String := String.ofList frame.encodeChars

def isLineEnd (c : Char) : Bool := c == '\r' || c == '\n'

def dropReturns (line : List Char) : List Char :=
  (line.reverse.dropWhile (· == '\r')).reverse

def decodeHeader (escapes : Bool) (line : List Char) : Except FrameError (String × String) :=
  match Text.splitOnce ':' line with
  | none => .error (.malformedHeader (String.ofList line))
  | some (name, value) =>
    if escapes then do
      let name ← unescape name
      let value ← unescape value
      .ok (String.ofList name, String.ofList value)
    else .ok (String.ofList name, String.ofList value)

def lengthOf? (text : String) : Option Nat := Text.decimal? UInt64.size text

/-- The head, and what follows the blank line; only without a plain blank line one that is written
with carriage returns is looked for. -/
def splitHead (text : List Char) : Option (List Char × List Char) :=
  (Text.splitOnceAt ['\n', '\n'] text).orElse fun _ =>
    Text.splitOnceAt ['\r', '\n', '\r', '\n'] text

/-- As many bytes as were declared, if there are that many and they end a character; else all up to
the first NUL. -/
def bodyOf (declared : Option Nat) (rest : List Char) : List Char :=
  ((declared.bind fun n => Text.takeBytes n rest)).getD (rest.takeWhile (· ≠ '\x00'))

def decodeChars (text : List Char) : Except FrameError (Option Frame) :=
  let text := text.dropWhile isLineEnd
  if text.isEmpty || text == ['\x00'] then .ok none
  else
    match splitHead text with
    | none => .error .noTerminator
    | some (head, rest) =>
      let lines := (Text.splitAtEach '\n' head).map dropReturns
      let name := String.ofList (lines.headD [])
      match Command.ofName? name with
      | none => .error (.unknownCommand name)
      | some command => do
        let headers ← (lines.tail.filter fun line => !line.isEmpty).mapM
          (decodeHeader command.escapesHeaders)
        let declared := (headers.lookup contentLength).bind lengthOf?
        .ok (some ⟨command, headers, String.ofList (bodyOf declared rest)⟩)

/-- Reads one frame; a text of line ends alone is a heart-beat and no frame. -/
def decode (text : String) : Except FrameError (Option Frame) := decodeChars text.toList

end Frame

end Federation
