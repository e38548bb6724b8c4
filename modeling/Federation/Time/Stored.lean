import Federation.Time.Rfc3339

/-!
# Times in the store

Times are stored by RFC 3339. Texts that came into the store in another way are read as well: a
blank for the `T`, no seconds, and no offset, which then is universal time.
-/

namespace Federation.Rfc3339

open Text (trimLeft)

/-- Fewer or more digits than written by RFC 3339, and blanks, are not strict. -/
def isStrict (text : List Char) : Bool :=
  let shape := ['0', '0', '0', '0', '-', '0', '0', '-', '0', '0', 'T', '0', '0', ':', '0', '0', ':',
    '0', '0']
  let fits := fun (c, s) =>
    if s = '0' then c.isDigit else if s = 'T' then c == 'T' || c == 't' || c == ' ' else c == s
  let rest := text.drop shape.length
  let rest := match rest with
    | '.' :: rest => rest.dropWhile Char.isDigit
    | rest => rest
  shape.length ≤ text.length && (text.zip shape).all fits &&
    match rest with
    | ['Z'] | ['z'] => true
    | [_, a, b, ':', c, d] => a.isDigit && b.isDigit && c.isDigit && d.isDigit
    | _ => false

def exactly (c : Char) (text : List Char) : Except TimeError (Unit × List Char) :=
  match text with
  | [] => .error .tooShort
  | d :: rest => if d = c then .ok ((), rest) else .error .invalid

def plainDate (text : List Char) : Except TimeError (CivilDate × List Char) := do
  let (year, rest) ← year text
  let (_, rest) ← exactly '-' rest
  let (month, rest) ← field 2 1 12 rest
  let (_, rest) ← exactly '-' rest
  let (day, rest) ← field 2 1 31 rest
  .ok (⟨year, month, day⟩, rest)

/-- Seconds with an optional fraction, or nothing. -/
def plainSeconds (text : List Char) : Except TimeError ((Nat × Nat) × List Char) :=
  match text with
  | ':' :: rest => do
    let (second, rest) ← field 2 0 60 rest
    let (nanos, rest) ← fraction rest
    .ok ((second, nanos), rest)
  | rest => .ok ((0, 0), rest)

/-- Nothing or a `Z` for universal time, or an offset. -/
def plainOffset (text : List Char) : Except TimeError (Int × List Char) :=
  match text with
  | [] => .ok (0, [])
  | ['Z'] => .ok (0, [])
  | rest =>
    match trimLeft rest with
    | '+' :: _ | '-' :: _ | '\u2212' :: _ => offset (trimLeft rest)
    | _ => .error .invalid

def readPlain (text : List Char) : Except TimeError Instant := do
  let (date, rest) ← plainDate text
  let rest := match rest with
    | 'T' :: rest => rest
    | rest => trimLeft rest
  let (hour, rest) ← field 2 0 23 rest
  let (_, rest) ← exactly ':' rest
  let (minute, rest) ← field 2 0 59 rest
  let ((second, nanos), rest) ← plainSeconds rest
  let (offset, rest) ← plainOffset rest
  if !rest.isEmpty then .error .tooLong
  assemble date hour minute second nanos offset

def readStored? (text : String) : Option Instant :=
  let strict := if isStrict text.toList then (read text).toOption else none
  strict.orElse fun _ => (readPlain text.toList).toOption

end Federation.Rfc3339
