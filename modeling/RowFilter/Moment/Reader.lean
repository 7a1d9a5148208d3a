import RowFilter.Moment.Calendar
import RowFilter.Text.Digit

/-!
Reading moments. Two notations are tried in turn. The first is the interchange notation: a date as
year, month and day or as year, week and weekday, with hyphens or without; any one character; a
time with colons or without; and an offset from universal time. The second is lenient: months,
days and times may have one digit, digits may be of any script, and blanks may stand before the
offset. A text without a time means midnight, one without an offset universal time.
-/

namespace RowFilter.Moment

/-- Why a text is no moment, no date or no time of day: it has no known form, or the form of one
that does not exist. -/
inductive ReadError where
  | noForm
  | noSuchDate
  | noSuchTime
  | noDateForm
  | noClockForm
  | noSuchClock
  deriving DecidableEq, Repr

structure Clock where
  hour : Nat := 0
  minute : Nat := 0
  second : Nat := 0
  micro : Nat := 0
  deriving DecidableEq, Repr

def Clock.isValid (c : Clock) : Bool :=
  c.hour < 24 && c.minute < 60 && c.second < 60

def Clock.length (c : Clock) : Nat :=
  ((c.hour * 60 + c.minute) * 60 + c.second) * 1000000 + c.micro

def dayLength : Nat := 86400000000

/-- The moment at which clocks show the time, those being `offset` microseconds ahead. -/
def ofLocal? (date : Date) (clock : Clock) (offset : Int) : Option Moment :=
  if date.isValid && clock.isValid && offset.natAbs < dayLength then
    some ⟨(date.dayNumber * dayLength + clock.length : Nat) - offset⟩
  else none

/-! ### The interchange notation -/

def takeDigits? : (n : Nat) → List Char → Option (Nat × List Char)
  | n, cs =>
    let digits := cs.take n
    if digits.length = n ∧ digits.all Char.isDigit then
      some (digits.foldl (fun v c => 10 * v + (c.toNat - '0'.toNat)) 0, cs.drop n)
    else none

def firstMonday (year : Nat) : Int :=
  let first : Date := ⟨year, 1, 1⟩
  (first.dayNumber : Int) - first.weekday + (if first.weekday ≤ 3 then 0 else 7)

def hasWeek (year week : Nat) : Bool :=
  let first := Date.weekday ⟨year, 1, 1⟩
  1 ≤ week && (week ≤ 52 || (week == 53 && (first == 3 || (first == 2 && Date.isLeap year))))

def ofWeek? (year week day : Nat) : Option Date :=
  if 1 ≤ year && hasWeek year week && 1 ≤ day && day ≤ 7 then
    let number := firstMonday year + (7 * (week - 1) + (day - 1) : Nat)
    if number < 0 then none else some (Date.ofDayNumber number.toNat)
  else none

/-- Reads a date; what follows it is not looked at. -/
def readDate? (cs : List Char) : Option Date := do
  let (year, cs) ← takeDigits? 4 cs
  let hyphens := cs.head? == some '-'
  let cs := if hyphens then cs.drop 1 else cs
  if cs.head? == some 'W' then
    let (week, cs) ← takeDigits? 2 (cs.drop 1)
    if cs.isEmpty then ofWeek? year week 1
    else if hyphens && cs.head? != some '-' then none
    else
      let (day, _) ← takeDigits? 1 (if hyphens then cs.drop 1 else cs)
      ofWeek? year week day
  else
    let (month, cs) ← takeDigits? 2 cs
    if hyphens && cs.head? != some '-' then none
    else
      let (day, _) ← takeDigits? 2 (if hyphens then cs.drop 1 else cs)
      some ⟨year, month, day⟩

def separatorAt (cs : List Char) : Nat :=
  let isDigitAt (i : Nat) : Bool := (cs[i]?.map Char.isDigit).getD false
  if cs.length == 7 then 7
  else if cs[4]? == some '-' then
    if cs[5]? == some 'W' then
      if cs[8]? == some '-' then (if isDigitAt 10 then 8 else 10) else 8
    else 10
  else if cs[4]? == some 'W' then
    let stop := 7 + ((cs.drop 7).takeWhile Char.isDigit).length
    if stop < 9 then stop else if stop % 2 == 0 then 7 else 8
  else 8

/-- The fraction of a second that digits after the mark stand for, and whether more follows. -/
def readFraction? (clock : Clock) (cs : List Char) : Option (Clock × Bool) := do
  let count := min 6 cs.length
  let (value, rest) ← takeDigits? count cs
  let hasMore := !(rest.dropWhile Char.isDigit).isEmpty
  return ({ clock with micro := value * Nat.pow 10 (6 - count) }, hasMore)

def Clock.withPart (clock : Clock) (part value : Nat) : Clock :=
  match part with
  | 0 => { clock with hour := value }
  | 1 => { clock with minute := value }
  | _ => { clock with second := value }

/-- Reads the parts of a time from the given one on, `colons` telling whether colons part them, and
tells whether a last ASCII character is left over. -/
def readParts? (colons : Bool) (clock : Clock) : (parts : Nat) → List Char → Option (Clock × Bool)
  | 0, cs => readFraction? clock cs
  | parts + 1, cs => do
    let (value, rest) ← takeDigits? 2 cs
    let clock := clock.withPart (2 - parts) value
    match rest with
    | [] => return (clock, false)
    | [c] => if c.toNat < 128 then return (clock, true) else none
    | c :: after =>
      let colons := if parts = 2 then c == ':' else colons
      if colons && c == ':' then readParts? colons clock parts after
      else if c == '.' || c == ',' then readFraction? clock after
      else if !colons then readParts? colons clock parts rest
      else none

def readClock? (cs : List Char) : Option (Clock × Bool) :=
  readParts? true {} 3 cs

/-- Reads a time of day and an offset; one of less than a second counts as none. -/
def readTime? (cs : List Char) : Option (Clock × Int) := do
  let isOffset (c : Char) : Bool := c == '+' || c == '-' || c == 'Z'
  let (clock, more) ← readClock? (cs.takeWhile (!isOffset ·))
  match cs.dropWhile (!isOffset ·) with
  | [] => if more then none else return (clock, 0)
  | 'Z' :: rest => if rest.isEmpty then return (clock, 0) else none
  | sign :: rest =>
    let (offset, more) ← readClock? rest
    let ahead : Int := if offset.length < 1000000 then 0 else offset.length
    if more then none else return (clock, if sign == '-' then -ahead else ahead)

def readInterchange? (cs : List Char) : Option Moment := do
  if cs.length < 7 then none
  else
    let place := separatorAt cs
    let date ← readDate? (cs.take place)
    let (clock, offset) ←
      if cs.length ≤ place then some ({}, 0) else readTime? (cs.drop (place + 1))
    ofLocal? date clock offset

/-- Reads a date in the interchange notation from a text of 7, 8 or 10 bytes. -/
def readPlainDate? (s : String) : Option Date := do
  let size := s.utf8ByteSize
  if size == 7 || size == 8 || size == 10 then
    let date ← readDate? s.toList
    if date.isValid then some date else none
  else none

/-! ### The lenient notation -/

def spanDigits : (limit : Nat) → List Char → List Nat × List Char
  | 0, cs => ([], cs)
  | _, [] => ([], [])
  | limit + 1, c :: cs =>
    match Text.decimalValue? c with
    | some d => let (ds, rest) := spanDigits limit cs; (d :: ds, rest)
    | none => ([], c :: cs)

def spanNumber? (least most : Nat) (cs : List Char) : Option (Nat × List Char) :=
  let (ds, rest) := spanDigits most cs
  if least ≤ ds.length then some (ds.foldl (fun n d => 10 * n + d) 0, rest) else none

def after? (p : Char → Bool) : List Char → Option (List Char)
  | c :: cs => if p c then some cs else none
  | [] => none

/-- Whether nothing is left, or only a line end. -/
def atEnd (cs : List Char) : Bool :=
  cs == [] || cs == ['\n']

def lenientDate? (cs : List Char) : Option (Date × List Char) := do
  let (year, cs) ← spanNumber? 4 4 cs
  let (month, cs) ← spanNumber? 1 2 (← after? (· == '-') cs)
  let (day, cs) ← spanNumber? 1 2 (← after? (· == '-') cs)
  return (⟨year, month, day⟩, cs)

def lenientFraction? (cs : List Char) : Option (Nat × List Char) :=
  match after? (fun c => c == '.' || c == ',') cs with
  | none => some (0, cs)
  | some rest =>
    let (ds, rest) := spanDigits 6 rest
    let (_, rest) := spanDigits 6 rest
    if ds.isEmpty then none
    else some (ds.foldl (fun n d => 10 * n + d) 0 * Nat.pow 10 (6 - ds.length), rest)

def lenientSeconds? (cs : List Char) : Option (Nat × Nat × List Char) :=
  match after? (· == ':') cs with
  | none => some (0, 0, cs)
  | some rest => do
    let (second, rest) ← spanNumber? 1 2 rest
    let (micro, rest) ← lenientFraction? rest
    return (second, micro, rest)

def lenientOffset? : List Char → Option Int
  | 'Z' :: cs => if atEnd cs then some 0 else none
  | c :: cs =>
    if c == '+' || c == '-' then do
      let (hours, cs) ← spanNumber? 2 2 cs
      let (minutes, cs) ←
        if atEnd cs then some (0, cs)
        else spanNumber? 2 2 ((after? (· == ':') cs).getD cs)
      let offset : Int := (60 * hours + minutes : Nat)
      if atEnd cs then some (if c == '-' then -offset else offset) else none
    else if atEnd (c :: cs) then some 0 else none
  | [] => some 0

/-- The parts of a date and time in the lenient notation, whether or not there is such a time. -/
def lenientParts? (cs : List Char) : Option (Date × Clock × Int) := do
  let (date, cs) ← lenientDate? cs
  let (hour, cs) ← spanNumber? 1 2 (← after? (fun c => c == 'T' || c == ' ') cs)
  let (minute, cs) ← spanNumber? 1 2 (← after? (· == ':') cs)
  let (second, micro, cs) ← lenientSeconds? cs
  let offset ← lenientOffset? (cs.dropWhile Text.isBlank)
  return (date, ⟨hour, minute, second, micro⟩, offset * 60000000)

def read (s : String) : Except ReadError Moment :=
  let cs := s.toList
  match readInterchange? cs with
  | some m => .ok m
  | none =>
    match lenientParts? cs with
    | some (date, clock, offset) =>
      match ofLocal? date clock offset with
      | some m => .ok m
      | none => .error .noSuchTime
    | none =>
      match readPlainDate? s, lenientDate? cs with
      | some date, _ => .ok (ofDate date 0 0 0 0)
      | none, some (date, rest) =>
        if !atEnd rest then .error .noForm
        else if date.isValid then .ok (ofDate date 0 0 0 0)
        else .error .noSuchDate
      | none, none => .error .noForm

end RowFilter.Moment
