import RowFilter.Query.Column
import RowFilter.Query.Pattern

/-!
Tests of cells. Null cells meet no test but two: that for null, and that for differing from
something, since a row without a value does not have that value. A search that was given nothing to
look for, since its operand cannot be written, is never made.

Integers beyond `Scalar.bounds` can be asked for, and no cell holds one. Comparing a column with one
of them is decided without looking: some tests exclude every row, and some include every row, even
those with a null cell.
-/

namespace RowFilter

inductive Comparator where
  | equal
  | greater
  | less
  | greaterOrEqual
  | lessOrEqual
  deriving DecidableEq, Repr

def Comparator.holds : Comparator → Cell → Cell → Bool
  | equal, a, b => a.agrees b
  | greater, a, b => b.before a
  | less, a, b => a.before b
  | greaterOrEqual, a, b => b.before a || a.agrees b
  | lessOrEqual, a, b => a.before b || a.agrees b

inductive Test where
  | compare (c : Comparator) (operand : Cell)
  | differs (operand : Cell)
  | isNull
  | notNull
  | isIn (operands : List Cell)
  | between (low high : Cell)
  | contains (s : Option String)
  deriving DecidableEq, Repr

namespace Test

def holds : Test → Cell → Bool
  | compare c operand, x => c.holds x operand
  | differs operand, x => x != operand
  | isNull, x => !x.isPresent
  | notNull, x => x.isPresent
  | isIn operands, x => operands.any (x.agrees ·)
  | between low high, x =>
    Comparator.greaterOrEqual.holds x low && Comparator.lessOrEqual.holds x high
  | contains s?, x => (s?.bind fun s => x.searchText?.map (searchIn s)).getD false

/-- Whether only a row that is there can meet the test, so that a missing one is not looked at. -/
def needsRow : Test → Bool
  | isNull | differs _ => false
  | _ => true

def operands : Test → List Cell
  | compare _ x | differs x => [x]
  | isIn xs => xs
  | between low high => [low, high]
  | isNull | notNull | contains _ => []

end Test

/-- The least and the greatest integer that a column can hold, in 64 bits. -/
def Scalar.bounds : Scalar → Int × Int
  | .natural => (0, 9223372036854775807)
  | _ => (-9223372036854775808, 9223372036854775807)

namespace Cell

def overflows : Cell → Bool
  | int n => n < -9223372036854775808 || 9223372036854775807 < n
  | _ => false

def isOutOfCalendar : Cell → Bool
  | moment m => !m.isInCalendar
  | _ => false

end Cell

namespace ColumnRef

def isOver (c : ColumnRef) (operand : Cell) : Bool :=
  match operand with
  | .int n => !c.isReference && n < c.scalar.bounds.1
  | _ => false

def isUnder (c : ColumnRef) (operand : Cell) : Bool :=
  match operand with
  | .int n => !c.isReference && c.scalar.bounds.2 < n
  | _ => false

/-- The year among the operands of a comparison that no date has; the last year has no last week. -/
def missingYear? (c : ColumnRef) (t : Test) : Option (Bool × Int) :=
  match c.year?, t with
  | some ofWeeks, .compare _ (.int n) | some ofWeeks, .differs (.int n) =>
    if n < 1 || 9999 < n || (ofWeeks && n == 9999) then some (ofWeeks, n) else none
  | _, _ => none

/-- Whether a test is known to fail whatever the column holds. -/
def excludes (c : ColumnRef) : Test → Bool
  | .compare .equal x => c.isOver x || c.isUnder x
  | .compare .greater x | .compare .greaterOrEqual x => c.isUnder x
  | .compare .less x | .compare .lessOrEqual x => c.isOver x
  | .isIn operands => operands.isEmpty
  | _ => false

/-- Whether a test is known to succeed whatever the column holds. -/
def includes (c : ColumnRef) : Test → Bool
  | .compare .greater x | .compare .greaterOrEqual x => c.isOver x
  | .compare .less x | .compare .lessOrEqual x => c.isUnder x
  | _ => false

/-- Whether a cell of the column meets a test. What is known of the test without looking counts. -/
def accepts (c : ColumnRef) (t : Test) (x : Cell) : Bool :=
  !c.excludes t && (c.includes t || t.holds x)

def overflows (c : ColumnRef) : Test → Bool
  | .compare _ x | .differs x => c.isReference && x.overflows
  | t => t.operands.any Cell.overflows

def meets (db : Database) (c : ColumnRef) (t : Test) (row : Row) : Bool :=
  (c.cells db t.needsRow row).any (c.accepts t)

end ColumnRef

end RowFilter
