import RowFilter.Query.Operand
import RowFilter.Query.Path

/-!
Contents. What a database is to hold is given by values: entries of models, with values for some of
their columns, and pairs of values for many-to-many fields. A column reads its value as it reads
operands, and where an entry has none for it the field's own blank cell is taken. Pairs are rows of
the model that their field goes through.
-/

namespace RowFilter

/-- The entries of models, by their keys, and the pairs of many-to-many fields, by the keys of
models and the names of fields. -/
structure Content where
  entries : String → List (Mapping Value)
  pairs : String → String → List (Value × Value)

def Field.blankCell (f : Field) : Cell :=
  match f.isNullable, f.kind with
  | false, .column .text _ => .text ""
  | false, .column .natural _ | false, .column .boolean _ => .int 0
  | _, _ => .null

namespace Schema

/-- The cell that a field of `m` has for a value; a value that it cannot read is none. -/
def cellOf (schema : Schema) (m : Model) (f : Field) (v : Value) : Cell :=
  match (schema.columnAt [] f.columnName m f false).readOperand false v with
  | .ok x => x
  | .error _ => .null

def rowOf (schema : Schema) (m : Model) (entry : Mapping Value) : Row :=
  (m.fields.filter Field.isLocal).map fun f =>
    (f.columnName, ((Mapping.find? f.columnName entry).map (schema.cellOf m f)).getD f.blankCell)

/-- The rows of the model `m` that pairs of a field of `owner` give: all of them if the field goes
through `m`, with keys from one on, and else none. -/
def pairRows (schema : Schema) (m owner : Model) (f : Field) (pairs : List (Value × Value)) :
    List Row :=
  match (f.target?.bind (schema.target? owner)).bind (schema.pairing? owner · f) with
  | none => []
  | some (through, left, right) =>
    if through.key ≠ m.key then []
    else pairs.zipIdx.map fun ((a, b), k) =>
      schema.rowOf m [("id", .int (k + 1)), (left.columnName, a), (right.columnName, b)]

def rowsOf (schema : Schema) (content : Content) (m : Model) : List Row :=
  (content.entries m.key).map (schema.rowOf m) ++ schema.models.flatMap fun owner =>
    owner.fields.flatMap fun f => schema.pairRows m owner f (content.pairs owner.key f.name)

def database (schema : Schema) (content : Content) : Database :=
  let tables : Mapping (List Row) :=
    schema.models.map fun m => (m.key, schema.rowsOf content m)
  ⟨fun key => (Mapping.find? key tables).getD []⟩

end Schema

end RowFilter
