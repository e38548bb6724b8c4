import Federation.Text.Blank
import Federation.Text.Decimal
import Federation.Time.Instant

/-!
# Times as text

Times are written by RFC 3339 in universal time: nanoseconds in as many groups of three digits as
they need, years outside 0 to 9999 with a sign. Reading is wider: blanks may stand before each
number and around the separators, a blank may stand for the `T`, and any offset is taken.
-/

namespace Federation

inductive TimeError where
  | outOfRange
  | impossible
  | invalid
  | tooShort
  | tooLong
  deriving DecidableEq, Repr

def TimeError.message : TimeError → String
  | .outOfRange => "input is out of range"
  | .impossible => "no possible date and time matching input"
  | .invalid => "input contains invalid characters"
  | .tooShort => "premature end of input"
  | .tooLong => "trailing input"

namespace Rfc3339

open Text (trimLeft digitValue valueOf)

/-- The digits at the front, at most `width` of them; at least one has to be there. -/
def number (width : Option Nat) (text : List Char) : Except TimeError (Nat × List Char) :=
  let digits := (match width with
    | some w => text.take w
    | none => text).takeWhile Char.isDigit
  match text, digits with
  | [], _ => .error .tooShort
  | _, [] => .error .invalid
  | _, _ => .ok (valueOf digits, text.drop digits.length)

/-- A number of at most `width` digits between `low` and `high`, blanks before it. -/
def field (width low high : Nat) (text : List Char) : Except TimeError (Nat × List Char) := do
  let (n, rest) ← number (some width) (trimLeft text)
  if low ≤ n && n ≤ high then .ok (n, rest) else .error .outOfRange

/-- Years are kept in 32 bits until the date is complete. -/
def fitsYear (n : Int) : Bool := (-n).toNat ≤ 2147483648 && n.toNat < 2147483648

/-- Four digits, or a sign and any number of them. -/
def year (text : List Char) : Except TimeError (Int × List Char) := do
  let (n, rest) ← match trimLeft text with
    | '-' :: rest => do
      let (n, rest) ← number none rest
      pure (-(n : Int), rest)
    | '+' :: rest => do
      let (n, rest) ← number none rest
      pure ((n : Int), rest)
    | rest => do
      let (n, rest) ← number (some 4) rest
      pure ((n : Int), rest)
  if fitsYear n then .ok (n, rest) else .error .outOfRange

/-- One given character, blanks before it. -/
def mark (c : Char) (text : List Char) : Except TimeError (Unit × List Char) :=
  match trimLeft text with
  | [] => .error .tooShort
  | d :: rest => if d = c then .ok ((), rest) else .error .invalid

/-- A point and digits of which nine count, or nothing. -/
def fraction : List Char → Except TimeError (Nat × List Char)
  | '.' :: text => do
    let (n, rest) ← number (some 9) text
    let used := text.length - rest.length
    .ok (n * Nat.pow 10 (9 - used), rest.dropWhile Char.isDigit)
  | text => .ok (0, text)

def twoDigits (text : List Char) : Except TimeError (Nat × List Char) :=
  match text with
  | a :: b :: rest =>
    if a.isDigit && b.isDigit then .ok (10 * digitValue a + digitValue b, rest) else .error .invalid
  | [a] => if a.utf8Size = 1 then .error .tooShort else .error .invalid
  | [] => .error .tooShort

/-- `Z`, `UTC`, or a signed number of hours and minutes, in seconds ahead of universal time. -/
def offset (text : List Char) : Except TimeError (Int × List Char) :=
  match text with
  | 'Z' :: rest | 'z' :: rest => .ok (0, rest)
  | [] => .error .tooShort
  | sign :: rest =>
    if (text.take 3).map Char.toUpper = ['U', 'T', 'C'] then .ok (0, text.drop 3)
    else if sign ≠ '+' ∧ sign ≠ '-' ∧ sign ≠ '\u2212' then .error .invalid
    else do
      let (hours, rest) ← twoDigits rest
      let (minutes, rest) ← twoDigits (rest.dropWhile fun c => c = ':' || Text.isBlank c)
      if 60 ≤ minutes then .error .outOfRange
      let seconds : Int := hours * 3600 + minutes * 60
      .ok (if sign = '+' then seconds else -seconds, rest)

def date (text : List Char) : Except TimeError (CivilDate × List Char) := do
  let (year, rest) ← year text
  let (_, rest) ← mark '-' rest
  let (month, rest) ← field 2 1 12 rest
  let (_, rest) ← mark '-' rest
  let (day, rest) ← field 2 1 31 rest
  .ok (⟨year, month, day⟩, rest)

/-- A local time and its offset become an instant; second 60 is a leap second. -/
def assemble (date : CivilDate) (hour minute second nanos : Nat) (offset : Int) :
    Except TimeError Instant :=
  if ¬ date.Valid then .error .outOfRange
  else if Instant.secondsPerDay ≤ offset.natAbs then .error .outOfRange
  else
    let leap := if second = 60 then 1000000000 else 0
    let t := Instant.ofLocal ⟨date, hour, minute, min second 59, nanos + leap⟩ offset
    if CivilDate.firstYear ≤ t.date.year ∧ t.date.year ≤ CivilDate.lastYear then .ok t
    else .error .impossible

def readChars (text : List Char) : Except TimeError Instant := do
  let (date, rest) ← date text
  let rest ← match rest with
    | [] => .error .tooShort
    | c :: rest => if c = 'T' ∨ c = 't' ∨ c = ' ' then .ok rest else .error .invalid
  let (hour, rest) ← field 2 0 23 rest
  let (_, rest) ← mark ':' rest
  let (minute, rest) ← field 2 0 59 rest
  let (_, rest) ← mark ':' rest
  let (second, rest) ← field 2 0 60 rest
  let (nanos, rest) ← fraction rest
  let (offset, rest) ← offset (trimLeft rest)
  if !(trimLeft rest).isEmpty then .error .tooLong
  assemble date hour minute second nanos offset

def read (text : String) : Except TimeError Instant := readChars text.toList

def padded (width n : Nat) : List Char :=
  let digits := Nat.toDigits 10 n
  List.replicate (width - digits.length) '0' ++ digits

def writeYear (year : Int) : List Char :=
  if 0 ≤ year ∧ year ≤ 9999 then padded 4 year.natAbs
  else (if year < 0 then '-' else '+') :: padded 4 year.natAbs

def writeFraction (nanos : Nat) : List Char :=
  if nanos = 0 then []
  else if nanos % 1000000 = 0 then '.' :: padded 3 (nanos / 1000000)
  else if nanos % 1000 = 0 then '.' :: padded 6 (nanos / 1000)
  else '.' :: padded 9 nanos

def writeLocal (t : Instant) : List Char :=
  let leap := 1000000000 ≤ t.nanos
  let second := if leap then t.second + 1 else t.second
  let nanos := if leap then t.nanos - 1000000000 else t.nanos
  writeYear t.date.year ++ '-' :: padded 2 t.date.month ++ '-' :: padded 2 t.date.day ++ 'T' ::
    padded 2 t.hour ++ ':' :: padded 2 t.minute ++ ':' :: padded 2 second ++ writeFraction nanos

/-- The form in messages, which ends in `Z`. -/
def write (t : Instant) : String := String.ofList (writeLocal t ++ ['Z'])

/-- The form in the store, which ends in a numeric offset. -/
def writeStored (t : Instant) : String :=
  String.ofList (writeLocal t ++ ['+', '0', '0', ':', '0', '0'])

end Rfc3339

end Federation
