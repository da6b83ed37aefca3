import ThreadSlots.Text.Padding

/-!
# Calendar dates and timestamps

Instants are counted from the start of 1970 in Coordinated Universal Time, where each day has
86400 seconds. A day number is turned into a date of the proleptic Gregorian calendar by counting
from the first of March of the year 0 in eras of 400 years, each of 146097 days: with the year
starting in March the leap day comes last, and the lengths of the months follow one linear rule.

A timestamp shows the instant to the millisecond in a fixed order of fields, each with leading
zeros, so that up to the year 9999 timestamps sort as text.
-/

namespace ThreadSlots

/-- A date of the proleptic Gregorian calendar. -/
structure Date where
  year : Nat
  /-- 1 to 12. -/
  month : Nat
  /-- 1 to 31. -/
  day : Nat
  deriving DecidableEq, Repr

namespace Date

/-- The date that lies `days` days after the first of January 1970. -/
def ofEpochDay (days : Nat) : Date :=
  let z := days + 719468
  let era := z / 146097
  let dayOfEra := z % 146097
  let yearOfEra := (dayOfEra - dayOfEra / 1460 + dayOfEra / 36524 - dayOfEra / 146096) / 365
  let dayOfYear := dayOfEra - (365 * yearOfEra + yearOfEra / 4 - yearOfEra / 100)
  let shifted := (5 * dayOfYear + 2) / 153
  let month := if shifted < 10 then shifted + 3 else shifted - 9
  { year := yearOfEra + era * 400 + (if month ≤ 2 then 1 else 0)
    month := month
    day := dayOfYear - (153 * shifted + 2) / 5 + 1 }

end Date

/-- The text of the instant `seconds` seconds and `millis` milliseconds after the start of 1970. -/
def timestamp (seconds millis : Nat) : String :=
  let date := Date.ofEpochDay (seconds / 86400)
  let two := Text.zeroPadded 2
  s!"{Text.zeroPadded 4 date.year}-{two date.month}-{two date.day}T" ++
    s!"{two (seconds % 86400 / 3600)}:{two (seconds % 3600 / 60)}:{two (seconds % 60)}" ++
    s!".{Text.zeroPadded 3 millis}Z"

/-- What a wall clock shows, relative to the start of 1970. -/
structure Clock where
  /-- Whole seconds, negative before 1970. -/
  seconds : Int := 0
  /-- The nanoseconds since then, below 1000000000. -/
  nanos : Nat := 0
  deriving DecidableEq, Repr

/-- The clock's timestamp. A clock that stands before 1970 reads as the start of 1970. -/
def Clock.timestamp (clock : Clock) : String :=
  if clock.seconds < 0 then ThreadSlots.timestamp 0 0
  else ThreadSlots.timestamp clock.seconds.toNat (clock.nanos / 1000000)

/-- What a wall clock shows, each time that it is looked at. -/
def Readings := Nat → Clock

/-- The readings that are left after some of them. -/
def Readings.drop (readings : Readings) (n : Nat) : Readings := fun i => readings (i + n)

/-- A clock may stand still. -/
instance : Coe Clock Readings := ⟨fun clock _ => clock⟩

end ThreadSlots
