import RowFilter.Moment.Reader

/-!
Parts of a moment. A moment has numbers, such as its month or the week that it is in, and it has
a date and a time of day, which have numbers of their own. Weeks begin on Monday and belong to the
year that their Thursday is in, so a moment has a year of its week besides the year of its date.
Dates and times of day are read in the notations of moments.
-/

namespace RowFilter

namespace Date

def thursday (d : Date) : Nat :=
  d.dayNumber - d.weekday + 3

def weekYear (d : Date) : Nat :=
  (ofDayNumber d.thursday).year

def week (d : Date) : Nat :=
  (d.thursday - daysBeforeYear d.weekYear) / 7 + 1

def text (d : Date) : String :=
  .ofList (Moment.padded 4 d.year ++ '-' :: Moment.padded 2 d.month
    ++ '-' :: Moment.padded 2 d.day)

example : week ⟨2024, 1, 10⟩ = 2 := by decide

example : weekYear ⟨2023, 1, 1⟩ = 2022 ∧ week ⟨2023, 1, 1⟩ = 52 := by decide

end Date

namespace Moment

def date (m : Moment) : Date :=
  .ofDayNumber (m.micros.toNat / dayLength)

def clock (m : Moment) : Clock :=
  let micros := m.micros.toNat
  ⟨micros / 3600000000 % 24, micros / 60000000 % 60, micros / 1000000 % 60, micros % 1000000⟩

def Clock.text (c : Clock) : String :=
  .ofList (padded 2 c.hour ++ ':' :: padded 2 c.minute ++ ':' :: padded 2 c.second
    ++ (if c.micro = 0 then [] else '.' :: padded 6 c.micro))

inductive Measure where
  | year
  | month
  | day
  | weekday
  | isoWeekday
  | week
  | isoYear
  | quarter
  | hour
  | minute
  | second
  deriving DecidableEq, Repr

namespace Measure

def ofDate : List Measure :=
  [year, month, day, weekday, isoWeekday, week, isoYear, quarter]

def ofClock : List Measure :=
  [hour, minute, second]

def name : Measure → String
  | year => "year"
  | month => "month"
  | day => "day"
  | weekday => "week_day"
  | isoWeekday => "iso_week_day"
  | week => "week"
  | isoYear => "iso_year"
  | quarter => "quarter"
  | hour => "hour"
  | minute => "minute"
  | second => "second"

/-- The number that a moment has. Weekdays count from Sunday or, in the other numbering, from
Monday. -/
def ofMoment (m : Moment) : Measure → Nat
  | year => m.date.year
  | month => m.date.month
  | day => m.date.day
  | weekday => (m.date.weekday + 1) % 7 + 1
  | isoWeekday => m.date.weekday + 1
  | week => m.date.week
  | isoYear => m.date.weekYear
  | quarter => (m.date.month + 2) / 3
  | hour => m.clock.hour
  | minute => m.clock.minute
  | second => m.clock.second

end Measure

inductive Part where
  | measure (x : Measure)
  | date
  | clock
  deriving DecidableEq, Repr

def Part.name : Part → String
  | measure x => x.name
  | date => "date"
  | clock => "time"

def readDate (s : String) : Except ReadError Date :=
  match readPlainDate? s, lenientDate? s.toList with
  | some date, _ => .ok date
  | none, some (date, rest) =>
    if !atEnd rest then .error .noDateForm
    else if date.isValid then .ok date
    else .error .noSuchDate
  | none, none => .error .noDateForm

/-- Reads a time of day in the interchange notation; an offset must be possible and is dropped. -/
def readPlainClock? (cs : List Char) : Option Clock := do
  let (clock, offset) ← readTime? (if cs.head? == some 'T' then cs.drop 1 else cs)
  if clock.isValid && offset.natAbs < dayLength then some clock else none

def lenientClock? (cs : List Char) : Option Clock := do
  let (hour, cs) ← spanNumber? 1 2 cs
  let (minute, cs) ← spanNumber? 1 2 (← after? (· == ':') cs)
  let (second, micro, cs) ← lenientSeconds? cs
  if atEnd cs then some ⟨hour, minute, second, micro⟩ else none

def readClock (s : String) : Except ReadError Clock :=
  match readPlainClock? s.toList, lenientClock? s.toList with
  | some clock, _ => .ok clock
  | none, some clock => if clock.isValid then .ok clock else .error .noSuchClock
  | none, none => .error .noClockForm

end Moment

end RowFilter
