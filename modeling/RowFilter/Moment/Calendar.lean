/-!
The proleptic Gregorian calendar. Days are numbered from the first of January of year 1, which is
day 0; a moment is a number of microseconds from the start of that day, in universal time, and is
written as a date, a space and a time.
-/

namespace RowFilter

structure Date where
  year : Nat
  month : Nat
  day : Nat
  deriving DecidableEq, Repr

namespace Date

def isLeap (year : Nat) : Bool :=
  year % 4 == 0 && (year % 100 != 0 || year % 400 == 0)

def daysInMonth (year month : Nat) : Nat :=
  if month == 2 then (if isLeap year then 29 else 28)
  else if month == 4 || month == 6 || month == 9 || month == 11 then 30
  else 31

def isValid (d : Date) : Bool :=
  1 ≤ d.year && d.year ≤ 9999 && 1 ≤ d.month && d.month ≤ 12 && 1 ≤ d.day
    && d.day ≤ daysInMonth d.year d.month

def daysBeforeYear (year : Nat) : Nat :=
  let y := year - 1
  365 * y + y / 4 - y / 100 + y / 400

def daysBeforeMonth (year month : Nat) : Nat :=
  (List.range (month - 1)).foldr (fun m days => daysInMonth year (m + 1) + days) 0

def dayNumber (d : Date) : Nat :=
  daysBeforeYear d.year + daysBeforeMonth d.year d.month + (d.day - 1)

def inYear (year : Nat) : (months : Nat) → (month n : Nat) → Nat × Nat
  | 0, month, n => (month, n + 1)
  | months + 1, month, n =>
    if n < daysInMonth year month then (month, n + 1)
    else inYear year months (month + 1) (n - daysInMonth year month)

def ofDayNumber (n : Nat) : Date :=
  let centuries := min 3 (n % 146097 / 36524)
  let inCentury := n % 146097 - 36524 * centuries
  let years := min 3 (inCentury % 1461 / 365)
  let year := 400 * (n / 146097) + 100 * centuries + 4 * (inCentury / 1461) + years + 1
  let (month, day) := inYear year 11 1 (inCentury % 1461 - 365 * years)
  ⟨year, month, day⟩

/-- The weekday, Monday being 0. -/
def weekday (d : Date) : Nat :=
  d.dayNumber % 7

example : (ofDayNumber (dayNumber ⟨2024, 2, 29⟩)) = ⟨2024, 2, 29⟩ := by decide

example : weekday ⟨2024, 1, 10⟩ = 2 := by decide

end Date

/-- A point in time, in microseconds since the start of day 0. -/
structure Moment where
  micros : Int
  deriving DecidableEq, Repr

namespace Moment

def padded (width n : Nat) : List Char :=
  let digits := Nat.toDigits 10 n
  List.replicate (width - digits.length) '0' ++ digits

def ofDate (date : Date) (hour minute second micro : Nat) : Moment :=
  ⟨(((date.dayNumber * 24 + hour) * 60 + minute) * 60 + second) * 1000000 + micro⟩

def isInCalendar (m : Moment) : Bool :=
  0 ≤ m.micros && m.micros < (ofDate ⟨10000, 1, 1⟩ 0 0 0 0).micros

def text (m : Moment) : String :=
  let seconds := m.micros.toNat / 1000000
  let micro := m.micros.toNat % 1000000
  let date := Date.ofDayNumber (seconds / 86400)
  .ofList (padded 4 date.year ++ '-' :: padded 2 date.month ++ '-' :: padded 2 date.day
    ++ ' ' :: padded 2 (seconds / 3600 % 24) ++ ':' :: padded 2 (seconds / 60 % 60)
    ++ ':' :: padded 2 (seconds % 60)
    ++ (if micro = 0 then [] else '.' :: padded 6 micro))

example : (ofDate ⟨2024, 1, 10⟩ 12 30 45 123456).text = "2024-01-10 12:30:45.123456" := by decide

end Moment

end RowFilter
