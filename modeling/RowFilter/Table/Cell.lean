import RowFilter.Mapping
import RowFilter.Moment.Part

/-!
Cells and rows. A cell is what a row holds in one column, or nothing, which is null. Cells of one
kind are ordered: integers by size, texts by code points, moments by time. Null and cells of two
kinds are neither before nor after one another.
-/

namespace RowFilter

inductive Cell where
  | null
  | int (n : Int)
  | text (s : String)
  | moment (m : Moment)
  deriving DecidableEq, Repr

namespace Cell

def isPresent : Cell → Bool
  | null => false
  | _ => true

def before : Cell → Cell → Bool
  | int a, int b => a < b
  | text a, text b => a < b
  | moment a, moment b => a.micros < b.micros
  | _, _ => false

/-- Whether both cells hold the same thing. Null holds nothing, and so agrees with no cell. -/
def agrees (a b : Cell) : Bool :=
  a.isPresent && a == b

def searchText? : Cell → Option String
  | null => none
  | int n => some (toString n)
  | text s => some s
  | moment m => some m.text

/-- The part of a moment, a date or a time of day being its text, which is in the order of time. -/
def part (p : Moment.Part) : Cell → Cell
  | moment m =>
    match p with
    | .measure x => int (x.ofMoment m)
    | .date => text m.date.text
    | .clock => text m.clock.text
  | _ => null

@[simp] theorem agrees_null_left (b : Cell) : agrees null b = false := by simp [agrees, isPresent]

@[simp] theorem agrees_null_right (a : Cell) : agrees a null = false := by
  cases a <;> simp [agrees, isPresent]

theorem agrees_comm (a b : Cell) : agrees a b = agrees b a := by
  by_cases h : a = b
  · simp [h]
  · simp [agrees, beq_false_of_ne h, beq_false_of_ne (Ne.symm h)]

theorem before_irrefl (a : Cell) : before a a = false := by
  cases a <;> simp [before]

end Cell

abbrev Row := Mapping Cell

/-- The cell of a row in a column; a row without the column holds null there. -/
def Row.cell (row : Row) (column : String) : Cell :=
  (Mapping.find? column row).getD .null

end RowFilter
