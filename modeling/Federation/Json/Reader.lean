import Federation.Json.Basic
import Federation.Number.Scaling

/-!
# Reading JSON

`Document.read` follows the grammar of RFC 8259. What the grammar admits but no value can hold
becomes `unreadable`, so that a record can still skip it in a field it does not know. Where a text
leaves the grammar, the document read so far ends with an unreadable part, and the fault is told
beside it.
-/

namespace Federation

namespace Number

/-- The digits that fit in 64 bits after `start`, and how many there are. -/
def accumulate (start : Nat) : List Char → Nat × Nat
  | [] => (start, 0)
  | c :: rest =>
    let next := start * 10 + (c.toNat - '0'.toNat)
    if next < UInt64.size then
      let (n, used) := accumulate next rest
      (n, used + 1)
    else (start, 0)

/-- A numeral as it is written; the digits of the exponent come with its sign. -/
structure Numeral where
  negative : Bool
  whole : List Char
  fraction : List Char
  exponent : Option (Bool × List Char)

def decimalValue (digits : List Char) : Nat :=
  digits.foldl (fun n c => 10 * n + (c.toNat - '0'.toNat)) 0

/-- An integer in range stands for itself; `-0` and every numeral with a fraction or an exponent is
a double, worked out from the leading digits that fit in 64 bits. None if it overflows. -/
def Numeral.value? (n : Numeral) : Option Number :=
  let (whole, used) := accumulate 0 n.whole
  let isInteger := n.fraction.isEmpty && n.exponent.isNone && used == n.whole.length
  if isInteger && !n.negative then some (.int whole)
  else if isInteger && 0 < whole && whole ≤ 9223372036854775808 then some (.int (-(whole : Int)))
  else
    let (significand, usedAfter) := accumulate whole n.fraction
    let given : Int := match n.exponent with
      | none => 0
      | some (isNegative, digits) =>
        if isNegative then -(decimalValue digits : Int) else decimalValue digits
    let exponent := (n.whole.length - used : Nat) - (usedAfter : Int) + given
    ((Binary.scale significand exponent).bind (Double.ofBinary? n.negative)).map .real

def digits (text : List Char) : List Char × List Char :=
  (text.takeWhile Char.isDigit, text.dropWhile Char.isDigit)

def readDigits (text : List Char) : Except JsonFault (List Char × List Char) :=
  match digits text with
  | ([], []) => .error .endInValue
  | ([], _) => .error .badNumber
  | found => .ok found

def readExponent (text : List Char) : Except JsonFault (Option (Bool × List Char) × List Char) :=
  match text with
  | 'e' :: rest | 'E' :: rest => do
    let (isNegative, rest) := match rest with
      | '-' :: rest => (true, rest)
      | '+' :: rest => (false, rest)
      | rest => (false, rest)
    let (ds, rest) ← readDigits rest
    .ok (some (isNegative, ds), rest)
  | rest => .ok (none, rest)

def readFraction (text : List Char) : Except JsonFault (List Char × List Char) :=
  match text with
  | '.' :: rest => readDigits rest
  | rest => .ok ([], rest)

/-- The digits before the point; a zero stands alone. -/
def readWhole (text : List Char) : Except JsonFault (List Char × List Char) := do
  match ← readDigits text with
  | ('0' :: _ :: _, _) => .error .badNumber
  | found => .ok found

def readNumeral (text : List Char) : Except JsonFault (Numeral × List Char) := do
  let (negative, rest) := match text with
    | '-' :: rest => (true, rest)
    | rest => (false, rest)
  let (whole, rest) ← readWhole rest
  let (fraction, rest) ← readFraction rest
  let (exponent, rest) ← readExponent rest
  .ok (⟨negative, whole, fraction, exponent⟩, rest)

end Number

namespace Document

def isGap (c : Char) : Bool := c == ' ' || c == '\n' || c == '\t' || c == '\r'

def skipGap (text : List Char) : List Char := text.dropWhile isGap

def hexValue? (c : Char) : Option Nat :=
  if '0' ≤ c ∧ c ≤ '9' then some (c.toNat - '0'.toNat)
  else if 'a' ≤ c ∧ c ≤ 'f' then some (c.toNat - 'a'.toNat + 10)
  else if 'A' ≤ c ∧ c ≤ 'F' then some (c.toNat - 'A'.toNat + 10)
  else none

def escaped? : Char → Option Char
  | '"' => some '"'
  | '\\' => some '\\'
  | '/' => some '/'
  | 'b' => some '\x08'
  | 'f' => some '\x0c'
  | 'n' => some '\n'
  | 'r' => some '\r'
  | 't' => some '\t'
  | _ => none

/-- A piece of a string: a character, or a number given by an escape, which may name half a
character. -/
inductive StringPiece where
  | char (c : Char)
  | code (n : Nat)

/-- The rest of a string after its opening quote. -/
def readPieces : List Char → Except JsonFault (List StringPiece × List Char)
  | '"' :: rest => .ok ([], rest)
  | '\\' :: 'u' :: a :: b :: c :: d :: rest =>
    match hexValue? a, hexValue? b, hexValue? c, hexValue? d with
    | some a, some b, some c, some d => do
      let (pieces, rest) ← readPieces rest
      .ok (.code (4096 * a + 256 * b + 16 * c + d) :: pieces, rest)
    | _, _, _, _ => .error .badEscape
  | '\\' :: 'u' :: _ => .error .endInString
  | '\\' :: c :: rest =>
    match escaped? c with
    | some c => do
      let (pieces, rest) ← readPieces rest
      .ok (.char c :: pieces, rest)
    | none => .error .badEscape
  | ['\\'] => .error .endInString
  | c :: rest =>
    if c.toNat < 0x20 then .error .controlCharacter
    else do
      let (pieces, rest) ← readPieces rest
      .ok (.char c :: pieces, rest)
  | [] => .error .endInString

def isHighHalf (n : Nat) : Bool := 0xD800 ≤ n && n < 0xDC00
def isLowHalf (n : Nat) : Bool := 0xDC00 ≤ n && n < 0xE000

/-- Joins the two halves of a character. -/
def joinHalves : List StringPiece → Except JsonFault (List Char)
  | [] => .ok []
  | .char c :: rest => do .ok (c :: (← joinHalves rest))
  | .code n :: rest =>
    if isHighHalf n then
      match rest with
      | .code m :: rest =>
        if isLowHalf m then do
          .ok (Char.ofNat (0x10000 + (n - 0xD800) * 0x400 + (m - 0xDC00)) :: (← joinHalves rest))
        else .error .loneHalf
      | _ => .error .missingHalf
    else if isLowHalf n then .error .loneHalf
    else do .ok (Char.ofNat n :: (← joinHalves rest))

/-- A string after its opening quote; the inner error tells that half a character is left. -/
def readString (text : List Char) : Except JsonFault (Except JsonFault String × List Char) := do
  let (pieces, rest) ← readPieces text
  .ok ((joinHalves pieces).map String.ofList, rest)

/-- Lists and objects may be nested this deep. -/
def maxDepth : Nat := 127

/-- What has been read, and the rest of the text, or the fault at which it broke off. -/
abbrev Reading (α : Type) := α × Except JsonFault (List Char)

def stopped (fault : JsonFault) : Reading Document := (.unreadable fault, .error fault)

/-- A list or an object inside `depth` others. -/
def nested (depth : Nat) (document : Document) : Document :=
  if depth < maxDepth then document else .unreadable .nestedTooDeep

def readWord (value : Document) : List Char → List Char → Reading Document
  | [], rest => (value, .ok rest)
  | _ :: _, [] => stopped .endInValue
  | c :: word, d :: rest => if c = d then readWord value word rest else stopped .wordExpected

mutual
/-- One value inside `depth` lists and objects. -/
def readValue : Nat → Nat → List Char → Reading Document
  | 0, _, _ => stopped .endInValue
  | fuel + 1, depth, text =>
    match skipGap text with
    | [] => stopped .endInValue
    | 'n' :: rest => readWord .null ['u', 'l', 'l'] rest
    | 't' :: rest => readWord (.bool true) ['r', 'u', 'e'] rest
    | 'f' :: rest => readWord (.bool false) ['a', 'l', 's', 'e'] rest
    | '"' :: rest =>
      match readString rest with
      | .error fault => stopped fault
      | .ok (.ok s, rest) => (.string s, .ok rest)
      | .ok (.error fault, rest) => (.unreadable fault, .ok rest)
    | '[' :: rest =>
      match skipGap rest with
      | [] => (.array [.unreadable .endInList], .error .endInList)
      | ']' :: rest => (nested depth (.array []), .ok rest)
      | rest =>
        let (items, rest) := readItems fuel (depth + 1) rest
        (nested depth (.array items), rest)
    | '\x7b' :: rest =>
      match skipGap rest with
      | [] => (.object [("", .unreadable .endInObject)], .error .endInObject)
      | '\x7d' :: rest => (nested depth (.object []), .ok rest)
      | rest =>
        match readMembers fuel (depth + 1) rest with
        | (.ok members, rest) => (nested depth (.object members), rest)
        | (.error fault, rest) => (.unreadable fault, rest)
    | c :: rest =>
      if c = '-' || c.isDigit then
        match Number.readNumeral (c :: rest) with
        | .error fault => stopped fault
        | .ok (numeral, rest) =>
          (numeral.value?.elim (.unreadable .numberOutOfRange) .number, .ok rest)
      else stopped .valueExpected
/-- One value or more, and the closing bracket. -/
def readItems : Nat → Nat → List Char → Reading (List Document)
  | 0, _, _ => ([], .error .endInList)
  | fuel + 1, depth, text =>
    match skipGap text with
    | ']' :: _ => ([.unreadable .trailingComma], .error .trailingComma)
    | text =>
      match readValue fuel depth text with
      | (item, .error fault) => ([item], .error fault)
      | (item, .ok rest) =>
        match skipGap rest with
        | ',' :: rest =>
          let (items, rest) := readItems fuel depth rest
          (item :: items, rest)
        | ']' :: rest => ([item], .ok rest)
        | [] => ([item, .unreadable .endInList], .error .endInList)
        | _ => ([item, .unreadable .listGoesOn], .error .listGoesOn)
/-- One member or more, and the closing brace; the inner error tells that a name cannot be read. -/
def readMembers : Nat → Nat → List Char →
    Reading (Except JsonFault (List (String × Document)))
  | 0, _, _ => (.ok [], .error .endInObject)
  | fuel + 1, depth, text =>
    let broken := fun name (fault : JsonFault) => (.ok [(name, .unreadable fault)], .error fault)
    match skipGap text with
    | '"' :: rest =>
      match readString rest with
      | .error fault => broken "" fault
      | .ok (.error fault, rest) => (.error fault, (readMember fuel depth rest).2.2)
      | .ok (.ok name, rest) =>
        match readMember fuel depth rest with
        | (value, members, rest) => (members.map ((name, value) :: ·), rest)
    | '\x7d' :: _ => broken "" .trailingComma
    | [] => broken "" .endInValue
    | _ => broken "" .nameExpected
/-- What comes after a name: the value, the other members, and the closing brace. -/
def readMember : Nat → Nat → List Char →
    Document × Reading (Except JsonFault (List (String × Document)))
  | 0, _, _ => (.unreadable .endInObject, .ok [], .error .endInObject)
  | fuel + 1, depth, text =>
    match skipGap text with
    | ':' :: rest =>
      match readValue fuel depth rest with
      | (value, .error fault) => (value, .ok [], .error fault)
      | (value, .ok rest) =>
        match skipGap rest with
        | ',' :: rest => (value, readMembers fuel depth rest)
        | '\x7d' :: rest => (value, .ok [], .ok rest)
        | [] => (value, .ok [("", .unreadable .endInObject)], .error .endInObject)
        | _ => (value, .ok [("", .unreadable .objectGoesOn)], .error .objectGoesOn)
    | [] => (.unreadable .endInObject, .ok [], .error .endInObject)
    | _ => (.unreadable .colonExpected, .ok [], .error .colonExpected)
end

/-- The document in a text, and the fault that ended the reading too early, if any. Every step of
the recursion but one takes a character, so twice the length of the text bounds it. -/
def read (text : List Char) : Document × Option JsonFault :=
  match readValue (2 * text.length + 2) 0 text with
  | (document, .error fault) => (document, some fault)
  | (document, .ok rest) =>
    (document, if (skipGap rest).isEmpty then none else some .textAfterValue)

end Document

def Json.read? (text : String) : Option Json :=
  match Document.read text.toList with
  | (document, none) => if document.fault?.isNone then some document.toJson else none
  | (_, some _) => none

end Federation
