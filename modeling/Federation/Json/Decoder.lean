import Federation.Failure.Validation
import Federation.Json.Printer
import Federation.Json.Reader
import Federation.Time.Rfc3339

/-!
# Decoding records from JSON

A decoder turns a document into a value of some type or reports the first problem in the order of
the document; fields that are missing come last, in the order of their declaration. A record may
stand as an object or as the list of its fields.

Where the document comes from makes a small difference: a text shows repeated members, a value does
not, and the two word a few mistakes differently. A part that had to be set aside, because what it
should be is only known later, counts as buffered.
-/

namespace Federation

/-- What a document turned out to be, as messages name it. -/
inductive Found where
  | null
  | bool (value : Bool)
  | integer (value : Int)
  | real (value : Double)
  | string (value : String)
  | sequence
  | map
  deriving DecidableEq, Repr

inductive DecodeError where
  | unreadable (fault : JsonFault)
  | invalidType (found : Found) (expected : String)
  | invalidValue (found : Found) (expected : String)
  | invalidLength (length : Nat) (expected : String)
  | missingField (name : String)
  | duplicateField (name : String)
  | unknownVariant (name : String) (expected : List String)
  | noVariant (name : String)
  | time (error : TimeError)
  | refused (error : ValidationError)
  deriving DecidableEq, Repr

namespace Found

def text : Found → String
  | .null => "null"
  | .bool b => "boolean `" ++ (if b then "true" else "false") ++ "`"
  | .integer n => "integer `" ++ toString n ++ "`"
  | .real d => "floating point `" ++ String.ofList (Number.realText d) ++ "`"
  | .string s => "string " ++ Text.quoted s
  | .sequence => "sequence"
  | .map => "map"

end Found

namespace DecodeError

def oneOf : List String → String
  | [name] => "`" ++ name ++ "`"
  | [first, second] => "`" ++ first ++ "` or `" ++ second ++ "`"
  | names => "one of " ++ ", ".intercalate (names.map fun n => "`" ++ n ++ "`")

/-- What was found wrong. Of a text the place in it would be told as well, by line and column; it
is left out here. -/
def message : DecodeError → String
  | .unreadable fault => fault.message
  | .invalidType found expected => "invalid type: " ++ found.text ++ ", expected " ++ expected
  | .invalidValue found expected => "invalid value: " ++ found.text ++ ", expected " ++ expected
  | .invalidLength n expected => "invalid length " ++ toString n ++ ", expected " ++ expected
  | .missingField name => "missing field `" ++ name ++ "`"
  | .duplicateField name => "duplicate field `" ++ name ++ "`"
  | .unknownVariant name expected =>
    "unknown variant `" ++ name ++ "`, expected " ++ oneOf expected
  | .noVariant name => "data did not match any variant of untagged enum " ++ name
  | .time error => error.message
  | .refused error => error.message

end DecodeError

inductive Source where
  | text
  | value
  | buffered
  deriving DecidableEq, Repr

def Document.found : Document → Found
  | .null | .unreadable _ => .null
  | .bool b => .bool b
  | .number (.int n) => .integer n
  | .number (.real d) => .real d
  | .string s => .string s
  | .array _ => .sequence
  | .object _ => .map

/-- Reads one document that comes from the given source. -/
def Decoder (α : Type) := Source → Document → Except DecodeError α

namespace Decoder

def mismatch (expected : String) (document : Document) : Except DecodeError α :=
  match document with
  | .unreadable fault => .error (.unreadable fault)
  | d => .error (.invalidType d.found expected)

def map (f : α → β) (decoder : Decoder α) : Decoder β :=
  fun source document => (decoder source document).map f

def andThen (decoder : Decoder α) (f : α → Except DecodeError β) : Decoder β :=
  fun source document => decoder source document >>= f

def string : Decoder String := fun _ document =>
  match document with
  | .string s => .ok s
  | d => mismatch "a string" d

def bool : Decoder Bool := fun _ document =>
  match document with
  | .bool b => .ok b
  | d => mismatch "a boolean" d

/-- An integer from 0 up to but not including `limit`, known in messages by `name`. -/
def natBelow (limit : Nat) (name : String) : Decoder Nat := fun _ document =>
  match document with
  | .number (.int n) =>
    if 0 ≤ n ∧ n < limit then .ok n.toNat else .error (.invalidValue (.integer n) name)
  | d => mismatch name d

def double : Decoder Double := fun _ document =>
  match document with
  | .number n => match (Json.number n).double? with
    | some d => .ok d
    | none => .error (.unreadable .numberOutOfRange)
  | d => mismatch "f64" d

def json : Decoder Json := fun _ document =>
  match document.fault? with
  | none => .ok document.toJson
  | some fault => .error (.unreadable fault)

def instant : Decoder Instant := fun _ document =>
  match document with
  | .string s => (Rfc3339.read s).mapError .time
  | d => mismatch "an RFC 3339 formatted date and time string" d

def nullable (decoder : Decoder α) : Decoder (Option α) := fun source document =>
  match document with
  | .null => .ok none
  | d => (decoder source d).map some

def items (decoder : Decoder α) (source : Source) : List Document → Except DecodeError (List α)
  | [] => .ok []
  | d :: rest => do
    let first ← decoder source d
    let others ← items decoder source rest
    .ok (first :: others)

def list (decoder : Decoder α) : Decoder (List α) := fun source document =>
  match document with
  | .array ds => items decoder source ds
  | d => mismatch "a sequence" d

def members (decoder : Decoder α) (source : Source) :
    List (String × Document) → Except DecodeError (List (String × α))
  | [] => .ok []
  | (name, d) :: rest => do
    let first ← decoder source d
    let others ← members decoder source rest
    .ok ((name, first) :: others)

def dictionary (decoder : Decoder α) : Decoder (List (String × α)) := fun source document =>
  match document with
  | .object ms => (members decoder source ms).map sortMembers
  | d => mismatch "a map" d

/-- One of a fixed set of names, or an object that maps such a name to `null`. -/
def variant (names : List (String × α)) : Decoder α := fun source document =>
  let choose := fun name => match names.lookup name with
    | some value => .ok value
    | none => .error (.unknownVariant name (names.map Prod.fst))
  let unit : Document → Except DecodeError Unit := fun d => match d with
    | .null => .ok ()
    | d => mismatch "unit" d
  match source, document with
  | _, .unreadable fault => .error (.unreadable fault)
  | _, .string s => choose s
  | .text, .object [] => .error (.unreadable .valueExpected)
  | .text, .object (("", .unreadable fault) :: _) => .error (.unreadable fault)
  | .text, .object ((name, d) :: rest) => do
    let value ← choose name
    unit d
    match rest with
    | [] => .ok value
    | (_, .unreadable .endInObject) :: _ => .error (.unreadable .endInObject)
    | _ => .error (.unreadable .valueExpected)
  | .text, _ => .error (.unreadable .valueExpected)
  | _, .object [(name, d)] => do
    let value ← choose name
    unit d
    .ok value
  | _, .object _ => .error (.invalidValue .map "map with a single key")
  | _, d => mismatch "string or map" d

def countOf (n : Nat) (unit : String) : String :=
  toString n ++ " " ++ unit ++ (if n = 1 then "" else "s")

/-- The complaint about a list that goes on after everything it should hold. -/
def surplus (source : Source) (total : Nat) (rest : List Document) : DecodeError :=
  match source, rest with
  | .text, [.unreadable .endInList] => .unreadable .endInList
  | .text, [.unreadable .trailingComma] => .unreadable .trailingComma
  | .text, _ => .unreadable .textAfterValue
  | .value, _ => .invalidLength total "fewer elements in array"
  | .buffered, _ =>
    .invalidLength total (countOf (total - rest.length) "element" ++ " in sequence")

end Decoder

/-- The fields of a record, with a slot for each that is filled when its member comes by. -/
structure Form (α : Type) where
  Slots : Type
  empty : Slots
  size : Nat
  /-- Fills the slot with that name, if there is one. -/
  fill : Source → String → Document → Slots → Except DecodeError (Option Slots)
  /-- Fills the slots in order from a list and returns what is left of it. The error is the number
  of items when they do not suffice. -/
  fillInOrder : Source → Nat → List Document → Except (DecodeError ⊕ Nat) (Slots × List Document)
  finish : Slots → Except DecodeError α

namespace Form

def pure (value : α) : Form α where
  Slots := Unit
  empty := ()
  size := 0
  fill _ _ _ _ := .ok none
  fillInOrder _ _ ds := .ok ((), ds)
  finish _ := .ok value

/-- One field; without a default it has to be there. -/
def field (name : String) (decoder : Decoder α) (default : Option α) : Form α where
  Slots := Option α
  empty := none
  size := 1
  fill source n d slot :=
    if n = name then
      match slot with
      | some _ => .error (.duplicateField name)
      | none => (decoder source d).map fun v => some (some v)
    else .ok none
  fillInOrder source index ds :=
    match ds with
    | d :: rest => match decoder source d with
      | .ok v => .ok (some v, rest)
      | .error e => .error (.inl e)
    | [] => match default with
      | some v => .ok (some v, [])
      | none => .error (.inr index)
  finish slot :=
    match slot, default with
    | some v, _ => .ok v
    | none, some v => .ok v
    | none, none => .error (.missingField name)

def required (name : String) (decoder : Decoder α) : Form α := field name decoder none

def optional (name : String) (decoder : Decoder α) (default : α) : Form α :=
  field name decoder (some default)

/-- The fields of the one and then those of the other. -/
def both (f : Form (α → β)) (g : Form α) : Form β where
  Slots := f.Slots × g.Slots
  empty := (f.empty, g.empty)
  size := f.size + g.size
  fill source name d slots := do
    match ← f.fill source name d slots.1 with
    | some first => .ok (some (first, slots.2))
    | none => match ← g.fill source name d slots.2 with
      | some second => .ok (some (slots.1, second))
      | none => .ok none
  fillInOrder source index ds := do
    let (first, rest) ← f.fillInOrder source index ds
    let (second, rest) ← g.fillInOrder source (index + f.size) rest
    .ok ((first, second), rest)
  finish slots := do
    let function ← f.finish slots.1
    let argument ← g.finish slots.2
    .ok (function argument)

/-- Goes through the members in their order; one that the record does not know is passed over, but
not beyond the end of a text that breaks off. -/
def fillAll (form : Form α) (source : Source) :
    List (String × Document) → form.Slots → Except DecodeError form.Slots
  | [], slots => .ok slots
  | (name, d) :: rest, slots => do
    match ← form.fill source name d slots, d.break? with
    | some slots, _ => fillAll form source rest slots
    | none, none => fillAll form source rest slots
    | none, some fault => .error (.unreadable fault)

/-- Decodes an object, or a list of the fields, as the record called `name` in messages. -/
def decode (name : String) (form : Form α) : Decoder α := fun source document =>
  match document with
  | .object members => do
    let slots ← form.fillAll source members form.empty
    form.finish slots
  | .array ds =>
    match form.fillInOrder source 0 ds with
    | .error (.inl e) => .error e
    | .error (.inr n) =>
      .error (.invalidLength n
        ("struct " ++ name ++ " with " ++ Decoder.countOf form.size "element"))
    | .ok (slots, rest) =>
      if rest.isEmpty then form.finish slots
      else .error (Decoder.surplus source ds.length rest)
  | d => Decoder.mismatch ("struct " ++ name) d

end Form

/-- Decodes a text. A fault in the text counts only when nothing before it is refused. -/
def Decoder.ofText (decoder : Decoder α) (text : String) : Except DecodeError α :=
  match Document.read text.toList with
  | (document, none) => decoder .text document
  | (document, some fault) => do
    let _ ← decoder .text document
    .error (.unreadable fault)

def Decoder.ofJson (decoder : Decoder α) (value : Json) : Except DecodeError α :=
  decoder .value value.toDocument

end Federation
