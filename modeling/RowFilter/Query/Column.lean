import RowFilter.Table.Database

/-!
Columns of a query. A hop leads from a row to the rows of a model that agree with it in a column: to
the one that it refers to, or to those that refer to it. A column reference is a column at the end
of some hops. Where a row has no such rows its cells are either none or, for questions that a
missing row may answer too, one null.
-/

namespace RowFilter

/-- A step from a row to the rows of a model whose column `target` agrees with its `column`. -/
structure Hop where
  column : String
  model : String
  target : String
  /-- Whether there may be several such rows. -/
  isMany : Bool := false
  /-- Whether there need be no such row. -/
  isOptional : Bool := false
  /-- Whether the hop follows a reference from the row that holds it. -/
  isDirect : Bool := true
  deriving DecidableEq, Repr

def Hop.partners (db : Database) (hop : Hop) (row : Row) : List Row :=
  (db.rows hop.model).filter fun other => (other.cell hop.target).agrees (row.cell hop.column)

/-- Where a row has a value: in a column of its own, or of the rows that hops lead to. -/
structure ColumnRef where
  hops : List Hop
  column : String
  /-- Hops that the path of the column goes on with, and that need not be taken: the column has the
  keys of the rows they lead to. -/
  beyond : List Hop := []
  scalar : Scalar
  /-- The name of the field that reads operands, in messages. -/
  field : String
  isReference : Bool
  /-- The part of the moments in the column that is meant. -/
  part : Option Moment.Part := none
  deriving DecidableEq, Repr

def followHops (db : Database) : List Hop → Row → List Row
  | [], row => [row]
  | hop :: hops, row => (hop.partners db row).flatMap (followHops db hops)

/-- The rows that hops lead to from a row, and none wherever they lead to no row. -/
def followOuter (db : Database) : List Hop → Row → List (Option Row)
  | [], row => [some row]
  | hop :: hops, row =>
    match hop.partners db row with
    | [] => [none]
    | partners => partners.flatMap (followOuter db hops)

theorem followHops_append (db : Database) (hops others : List Hop) (row : Row) :
    followHops db (hops ++ others) row =
      (followHops db hops row).flatMap (followHops db others) := by
  induction hops generalizing row with
  | nil => simp [followHops]
  | cons hop hops ih => simp [followHops, List.flatMap_assoc, funext ih]

namespace ColumnRef

def cellIn (c : ColumnRef) (row : Row) : Cell :=
  match c.part with
  | none => row.cell c.column
  | some p => (row.cell c.column).part p

def cells (db : Database) (c : ColumnRef) (needsRow : Bool) (row : Row) : List Cell :=
  if needsRow then (followHops db c.hops row).map c.cellIn
  else (followOuter db c.hops row).map fun other => (other.map c.cellIn).getD .null

def read (db : Database) (c : ColumnRef) (row : Row) : Cell :=
  ((c.cells db true row).head?).getD .null

/-- Whether the reference means a year and, if it does, whether the year of weeks. -/
def year? (c : ColumnRef) : Option Bool :=
  match c.part with
  | some (.measure .year) => some false
  | some (.measure .isoYear) => some true
  | _ => none

/-- The reference to a part of the moments, dates or times of day that the column holds. -/
def takePart (c : ColumnRef) (p : Moment.Part) : ColumnRef :=
  let scalar : Scalar := match p with
    | .measure _ => .integer
    | .date => .date
    | .clock => .clock
  { c with part := some p, scalar, field := "None" }

def shorten (c : ColumnRef) : (reversed : List Hop) → ColumnRef
  | [] => { c with hops := [] }
  | hop :: hops =>
    if hop.isDirect && hop.target == c.column then
      { c with column := hop.column, beyond := hop :: c.beyond }.shorten hops
    else { c with hops := (hop :: hops).reverse }

/-- The reference without hops that need not be taken. -/
def trimmed (c : ColumnRef) : ColumnRef :=
  c.shorten c.hops.reverse

/-- The path of hops up to the first that may lead to several rows. -/
def singlePath (c : ColumnRef) : List Hop :=
  (c.hops ++ c.beyond).takeWhile (!·.isMany)

theorem cells_of_hops_eq_nil {c : ColumnRef} (h : c.hops = []) (db : Database) (needsRow : Bool)
    (row : Row) : c.cells db needsRow row = [c.cellIn row] := by
  cases needsRow <;> simp [cells, followHops, followOuter, h]

theorem read_of_hops_eq_nil {c : ColumnRef} (h : c.hops = []) (db : Database) (row : Row) :
    c.read db row = c.cellIn row := by
  simp [read, cells_of_hops_eq_nil h]

theorem cellIn_of_part_eq_none {c : ColumnRef} (h : c.part = none) (row : Row) :
    c.cellIn row = row.cell c.column := by
  simp [cellIn, h]

theorem trimmed_of_hops_eq_nil {c : ColumnRef} (h : c.hops = []) : c.trimmed = c := by
  cases c
  simp_all [trimmed, shorten]

end ColumnRef

end RowFilter
