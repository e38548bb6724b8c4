import Federation.Json.Fault
import Federation.Number.Double

/-!
# JSON values

A value keeps the members of an object in increasing order of their names, each name once. A
document is a value as it stands in a text: members in the order written, repeated names included.
Reading a text yields a document, `Document.toJson` forgets what only the text shows, and records
are written by giving their members in the order of their fields.
-/

namespace Federation

/-- Integers are kept from `-2 ^ 63` to `2 ^ 64 - 1`; all other numbers are doubles. -/
inductive Number where
  | int (value : Int)
  | real (value : Double)
  deriving DecidableEq, Repr, Inhabited

inductive Json where
  | null
  | bool (value : Bool)
  | number (value : Number)
  | string (value : String)
  | array (items : List Json)
  | object (members : List (String × Json))
  deriving Repr, Inhabited, BEq

/-- `unreadable` stands for a part of a text that has no value: a number beyond the doubles, an
escape that names half a character, a list nested too deep, or the place where the text breaks
off. -/
inductive Document where
  | null
  | bool (value : Bool)
  | number (value : Number)
  | string (value : String)
  | array (items : List Document)
  | object (members : List (String × Document))
  | unreadable (fault : JsonFault)
  deriving Repr, Inhabited

/-- The members with `value` at `name`, in place of any earlier one. -/
def insertMember (name : String) (value : α) : List (String × α) → List (String × α)
  | [] => [(name, value)]
  | (n, v) :: rest =>
    if name < n then (name, value) :: (n, v) :: rest
    else if name = n then (name, value) :: rest
    else (n, v) :: insertMember name value rest

/-- Sorted members; of a repeated name the last one counts. -/
def sortMembers (members : List (String × α)) : List (String × α) :=
  members.foldl (fun acc m => insertMember m.1 m.2 acc) []

def sortTexts (texts : List String) : List String :=
  (sortMembers (texts.map fun t => (t, ()))).map Prod.fst

namespace Document

/-- A double that is not finite has no value. -/
def numberToJson : Number → Json
  | .int n => .number (.int n)
  | .real d => if d.isFinite then .number (.real d) else .null

mutual
def toJson : Document → Json
  | .null => .null
  | .bool b => .bool b
  | .number n => numberToJson n
  | .string s => .string s
  | .array items => .array (toJsonItems items)
  | .object members => .object (sortMembers (toJsonMembers members))
  | .unreadable _ => .null
def toJsonItems : List Document → List Json
  | [] => []
  | d :: rest => d.toJson :: toJsonItems rest
def toJsonMembers : List (String × Document) → List (String × Json)
  | [] => []
  | (n, d) :: rest => (n, d.toJson) :: toJsonMembers rest
end

mutual
/-- The first unreadable part whose fault is one of those asked for. -/
def findFault? (wanted : JsonFault → Bool) : Document → Option JsonFault
  | .array items => findFaultItems? wanted items
  | .object members => findFaultMembers? wanted members
  | .unreadable fault => if wanted fault then some fault else none
  | _ => none
def findFaultItems? (wanted : JsonFault → Bool) : List Document → Option JsonFault
  | [] => none
  | d :: rest => (d.findFault? wanted).orElse fun _ => findFaultItems? wanted rest
def findFaultMembers? (wanted : JsonFault → Bool) : List (String × Document) → Option JsonFault
  | [] => none
  | (_, d) :: rest => (d.findFault? wanted).orElse fun _ => findFaultMembers? wanted rest
end

def fault? (document : Document) : Option JsonFault := document.findFault? fun _ => true

/-- The place where the text breaks off, if it lies within the document. -/
def break? (document : Document) : Option JsonFault := document.findFault? fun f => !f.isPassable

mutual
/-- How many lists and objects enclose the innermost part. -/
def depth : Document → Nat
  | .array items => depthItems items + 1
  | .object members => depthMembers members + 1
  | _ => 0
def depthItems : List Document → Nat
  | [] => 0
  | d :: rest => max d.depth (depthItems rest)
def depthMembers : List (String × Document) → Nat
  | [] => 0
  | (_, d) :: rest => max d.depth (depthMembers rest)
end

def ofTexts (texts : List String) : Document := .array (texts.map .string)

def ofText? (text : Option String) : Document := text.elim .null .string

/-- A member that is left out when there is nothing to put in. -/
def ofPresent (name : String) (value : Option Document) : List (String × Document) :=
  value.toList.map fun d => (name, d)

end Document

namespace Json

mutual
def toDocument : Json → Document
  | .null => .null
  | .bool b => .bool b
  | .number n => .number n
  | .string s => .string s
  | .array items => .array (toDocumentItems items)
  | .object members => .object (toDocumentMembers members)
def toDocumentItems : List Json → List Document
  | [] => []
  | v :: rest => v.toDocument :: toDocumentItems rest
def toDocumentMembers : List (String × Json) → List (String × Document)
  | [] => []
  | (n, v) :: rest => (n, v.toDocument) :: toDocumentMembers rest
end

mutual
/-- Every object in the value lists its members in strictly increasing order of their names. -/
def Sorted : Json → Prop
  | .array items => SortedItems items
  | .object members => (members.map Prod.fst).Pairwise (· < ·) ∧ SortedMembers members
  | _ => True
def SortedItems : List Json → Prop
  | [] => True
  | v :: rest => v.Sorted ∧ SortedItems rest
def SortedMembers : List (String × Json) → Prop
  | [] => True
  | (_, v) :: rest => v.Sorted ∧ SortedMembers rest
end

def isNull : Json → Bool
  | .null => true
  | _ => false

def isObject : Json → Bool
  | .object _ => true
  | _ => false

def string? : Json → Option String
  | .string s => some s
  | _ => none

def array? : Json → Option (List Json)
  | .array items => some items
  | _ => none

def object? : Json → Option (List (String × Json))
  | .object members => some members
  | _ => none

def get? (v : Json) (name : String) : Option Json := v.object?.bind (List.lookup name)

def ofNat (n : Nat) : Json := .number (.int n)

def double? : Json → Option Double
  | .number (.int n) =>
    if n < 0 then some (Double.ofFloat (-(Double.ofNat n.natAbs).toFloat))
    else some (Double.ofNat n.natAbs)
  | .number (.real d) => some d
  | _ => none

end Json

end Federation
