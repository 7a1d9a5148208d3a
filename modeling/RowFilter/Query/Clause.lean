import RowFilter.Query.Condition
import RowFilter.Query.Operand
import RowFilter.Query.Path

/-!
Clauses. A clause asks something of a column of a query's model, by the column's path, which may be
qualified by the name of the model's table. `Schema.clauseCondition` makes it a condition: it finds
the column and reads the operands. An ordering comparison with null, or a search for null, is met by
no row and does not even look for the column.
-/

namespace RowFilter

inductive Clause where
  | compare (column : String) (operator operand : Value)
  | isIn (column : String) (operands : Value)
  | between (column : String) (bounds : Value)
  | null (column : String)
  | notNull (column : String)

def searchToken : String := "like"

def searchLookup : String := "contains"

/-- The path of a column in the table of the given name: a qualifier up to the last dot must name
the table, and something must follow it. -/
def fieldPath (table column : String) : Except Fault String :=
  match Text.lastCut '.' column with
  | none => .ok column
  | some (qualifier, name) =>
    if qualifier = table ∧ name ≠ "" then .ok name
    else .error (.rejected (.foreignColumn column table))

namespace Comparator

def ofToken? : String → Option Comparator
  | "=" => some equal
  | ">" => some greater
  | "<" => some less
  | ">=" => some greaterOrEqual
  | "<=" => some lessOrEqual
  | _ => none

def lookup : Comparator → String
  | equal => "exact"
  | greater => "gt"
  | less => "lt"
  | greaterOrEqual => "gte"
  | lessOrEqual => "lte"

def roundsUp : Comparator → Bool
  | less | greaterOrEqual => true
  | _ => false

/-- The test for comparing with an operand; only one for equality is ever given null. -/
def test (c : Comparator) (operand : Cell) : Test :=
  if operand = .null then .isNull else .compare c operand

end Comparator

/-- The column that a hop after some others starts from. It is a key, and whole whatever part of a
moment the path ends in; no operand is ever read for it. -/
def Hop.start (hop : Hop) (before : List Hop) : ColumnRef :=
  ColumnRef.trimmed
    { hops := before, column := hop.column, scalar := .integer, field := hop.column
      isReference := true }

/-- The condition that rows of `m` do not have a cell in a column. By hops to several rows, none of
these may have it; the rows are found from the column that the first such hop starts from. -/
def ColumnRef.denial (m : Model) (c : ColumnRef) (x : Cell) : Condition :=
  let before := c.hops.takeWhile (!·.isMany)
  match c.hops.dropWhile (!·.isMany) with
  | [] => .test c (if x = .null then .notNull else .differs x)
  | many :: after =>
    let outer := many.start before
    if x = .null then
      .absent
        { outer, model := (before.getLast?.map (·.model)).getD m.concrete, target := many.column
          inner := { c with hops := many :: after }, test := .isNull
          butNull := before.any (·.isOptional) }
    else
      .absent
        { outer, model := many.model, target := many.target, inner := { c with hops := after }
          test := .compare .equal x, butNull := false }

namespace Schema

def onColumn (schema : Schema) (m : Model) (path lookup : String)
    (build : ColumnRef → Except Fault Test) : Except Fault Condition := do
  let column ← schema.resolve m path lookup
  return .test column (← build column)

def comparison (schema : Schema) (m : Model) (path : String) (operator operand : Value) :
    Except Fault Condition :=
  match operator with
  | .list _ | .mapping _ => .error (.unhashable operator.shape)
  | .text "<>" => do
    let column ← schema.resolve m path "exact"
    return column.denial m (← column.readOperand false operand)
  | .text token =>
    match Comparator.ofToken? token with
    | some c =>
      if operand.isNull && c != .equal then .ok .never
      else schema.onColumn m path c.lookup fun column => do
        return c.test (← column.readOperand c.roundsUp operand)
    | none =>
      if token ≠ searchToken then .error (.rejected (.badComparator operator))
      else if operand.isNull then .ok .never
      else schema.onColumn m path searchLookup fun _ =>
        .ok (.contains operand.written.toOption)
  | _ => .error (operator.told (.rejected (.badComparator operator)))

def clauseCondition (schema : Schema) (m : Model) : Clause → Except Fault Condition
  | .compare column operator operand => do
    schema.comparison m (← fieldPath m.table column) operator operand
  | .isIn column operands => do
    let path ← fieldPath m.table column
    let items ← operands.items
    schema.onColumn m path "in" fun c => .isIn <$> c.readOperands items
  | .between column bounds => do
    let items ← bounds.items.mapError fun _ => .noLength bounds.shape
    match items with
    | [low, high] =>
      schema.onColumn m (← fieldPath m.table column) "range" fun c => do
        return .between (← c.readOperand false low) (← c.readOperand false high)
    | _ => .error (.rejected (.twoBounds column items.length))
  | .null column => do
    schema.onColumn m (← fieldPath m.table column) "isnull" fun _ => .ok .isNull
  | .notNull column => do
    schema.onColumn m (← fieldPath m.table column) "isnull" fun _ => .ok .notNull

end Schema

end RowFilter
