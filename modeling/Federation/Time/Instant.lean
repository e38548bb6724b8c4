import Federation.Time.Duration

/-!
# Points in time

An instant is a civil date and a time of day in universal time, to the nanosecond. A leap second is
second 59 with a thousand million nanoseconds or more. The fields, from the year down, order
instants as time does, and a shift by less than a day changes the date by at most one day, so no
count of days since an epoch is needed.
-/

namespace Federation

structure CivilDate where
  year : Int
  month : Nat
  day : Nat
  deriving DecidableEq, Repr, Inhabited

structure Instant where
  date : CivilDate
  hour : Nat
  minute : Nat
  second : Nat
  nanos : Nat
  deriving DecidableEq, Repr, Inhabited

namespace CivilDate

def isLeap (year : Int) : Bool := year % 4 = 0 && (year % 100 ≠ 0 || year % 400 = 0)

def daysIn (year : Int) : Nat → Nat
  | 2 => if isLeap year then 29 else 28
  | 4 | 6 | 9 | 11 => 30
  | _ => 31

/-- The years that dates can have. -/
def firstYear : Int := -262143
def lastYear : Int := 262142

def Valid (d : CivilDate) : Prop :=
  firstYear ≤ d.year ∧ d.year ≤ lastYear ∧ 1 ≤ d.month ∧ d.month ≤ 12 ∧ 1 ≤ d.day ∧
    d.day ≤ daysIn d.year d.month

instance (d : CivilDate) : Decidable d.Valid := by unfold Valid; infer_instance

def next (d : CivilDate) : CivilDate :=
  if d.day < daysIn d.year d.month then { d with day := d.day + 1 }
  else if d.month < 12 then ⟨d.year, d.month + 1, 1⟩
  else ⟨d.year + 1, 1, 1⟩

def previous (d : CivilDate) : CivilDate :=
  if 1 < d.day then { d with day := d.day - 1 }
  else if 1 < d.month then ⟨d.year, d.month - 1, daysIn d.year (d.month - 1)⟩
  else ⟨d.year - 1, 12, 31⟩

end CivilDate

namespace Instant

def secondOfDay (t : Instant) : Nat := t.hour * 3600 + t.minute * 60 + t.second

/-- The instant at `second` of the day of `date`. -/
def ofSecondOfDay (date : CivilDate) (second nanos : Nat) : Instant :=
  ⟨date, second / 3600, second / 60 % 60, second % 60, nanos⟩

def secondsPerDay : Nat := 86400

/-- The universal time of a local time that runs `offset` seconds ahead, with `offset` below a day
in either direction. -/
def ofLocal (t : Instant) (offset : Int) : Instant :=
  let second := (t.secondOfDay : Int) - offset
  if second < 0 then ofSecondOfDay t.date.previous (second + secondsPerDay).toNat t.nanos
  else if second < secondsPerDay then ofSecondOfDay t.date second.toNat t.nanos
  else ofSecondOfDay t.date.next (second - secondsPerDay).toNat t.nanos

def keys (t : Instant) : List Int :=
  [t.date.year, t.date.month, t.date.day, t.hour, t.minute, t.second, t.nanos]

def le (s t : Instant) : Bool := !(t.keys.lex s.keys fun m n => m < n)

end Instant

end Federation
