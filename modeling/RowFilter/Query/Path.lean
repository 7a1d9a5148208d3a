import RowFilter.Fault
import RowFilter.Query.Column
import RowFilter.Schema.Names
import RowFilter.Text.Likeness

/-!
Paths of columns. A path is a text of names joined by doubled underscores, the first a name on a
model. A name of a link leads on to the rows it links, one or many, and the next name is one on
their model; a name that is not known there ends the path, as does a column. What is left over names
parts of the moments in the column, and at last a lookup that there must be for it.
-/

namespace RowFilter

/-- Where a path leads: the column at its end, the type of the last field on it, and the names that
it has left over. -/
structure Place where
  column : ColumnRef
  typeName : String
  rest : List String

/-- Where one name leads from a model: a column, and the model of the rows it is a column of if
names may follow. -/
structure Lead where
  column : ColumnRef
  typeName : String
  target : Option Model

def Field.backTypeName (f : Field) : String :=
  match f.kind with
  | .links .. => "ManyToManyRel"
  | .reference true .. => "OneToOneRel"
  | _ => "ManyToOneRel"

namespace Schema

/-- The scalar that the values of a field are, and the name of the field that holds it. The values
of a reference are those of the field that it refers to. -/
def scalarOf (schema : Schema) : (fuel : Nat) → Model → Field → Scalar × String
  | 0, _, f => (.integer, f.name)
  | fuel + 1, m, f =>
    match f.kind with
    | .column scalar _ => (scalar, f.name)
    | .reference _ name targetField _ =>
      match schema.target? m name with
      | none => (.integer, f.name)
      | some target =>
        match targetField with
        | some other =>
          match schema.forward? target other with
          | some (owner, field) => schema.scalarOf fuel owner field
          | none => (.integer, other)
        | none =>
          match schema.keyField? target with
          | some key => schema.scalarOf fuel target key
          | none => (.integer, f.name)
    | _ => (.integer, f.name)

def columnAt (schema : Schema) (hops : List Hop) (column : String) (m : Model) (f : Field)
    (isReference : Bool) : ColumnRef :=
  let (scalar, field) := schema.scalarOf (schema.models.length + 1) m f
  { hops, column, scalar, field, isReference }

def hopTo? (schema : Schema) (m : Model) (f : Field) : Option (Hop × Model) := do
  let target ← schema.target? m (← f.target?)
  let key ← match f.kind with
    | .reference _ _ (some name) _ => (schema.forward? target name).map (·.2)
    | _ => schema.keyField? target
  return ({ column := f.columnName, model := target.concrete, target := key.columnName
            isOptional := f.isNullable }, target)

def hopBack? (schema : Schema) (source : Model) (f : Field) : Option Hop := do
  let (hop, _) ← schema.hopTo? source f
  return { column := hop.target, model := source.concrete, target := hop.column
           isMany := !f.isUnique, isOptional := true, isDirect := false }

/-- Where pairs lead that are rows of `through`, from the side that `left` refers to to the side
that `right` refers to. -/
def leadAcross? (schema : Schema) (through : Model) (left right : Field) : Option Lead := do
  let back ← schema.hopBack? through left
  let (hop, target) ← schema.hopTo? through right
  return { column := schema.columnAt [back, hop] hop.target through right true
           typeName := right.typeName, target := some target }

def lead? (schema : Schema) : Member → Option Lead
  | .forward owner f =>
    match f.kind with
    | .column .. =>
      some { column := schema.columnAt [] f.columnName owner f false, typeName := f.typeName
             target := none }
    | .reference .. => do
      let (hop, target) ← schema.hopTo? owner f
      return { column := schema.columnAt [hop] hop.target owner f true, typeName := f.typeName
               target := some target }
    | .links .. => do
      let target ← schema.target? owner (← f.target?)
      let (through, left, right) ← schema.pairing? owner target f
      schema.leadAcross? through left right
    | _ => none
  | .reverse source f _ =>
    if f.isLinks then do
      let target ← schema.target? source (← f.target?)
      let (through, left, right) ← schema.pairing? source target f
      schema.leadAcross? through right left
    else do
      let back ← schema.hopBack? source f
      let key ← schema.keyField? source
      return { column := schema.columnAt [back] key.columnName source key true
               typeName := f.backTypeName, target := some source }

/-- Follows names from a model after some hops; none if the first name is not known there. -/
def follow? (schema : Schema) (hops : List Hop) (m : Model) : List String → Option Place
  | [] => none
  | name :: rest => do
    let lead ← schema.lead? (← schema.member? m name)
    let hops := hops ++ lead.column.hops
    let here : Place := ⟨{ lead.column with hops }, lead.typeName, rest⟩
    match lead.target with
    | none => here
    | some target => (schema.follow? hops target rest).getD here

end Schema

namespace Lookup

def ofLinks : List String :=
  ["exact", "gt", "gte", "in", "isnull", "lt", "lte"]

def ofColumns : List String :=
  ["exact", "iexact", "gt", "gte", "lt", "lte", "in", "contains", "icontains", "startswith",
    "istartswith", "endswith", "iendswith", "range", "isnull", "regex", "iregex"]

def parts : Scalar → List Moment.Part
  | .moment => (Moment.Measure.ofDate ++ Moment.Measure.ofClock).map .measure ++ [.date, .clock]
  | .date => Moment.Measure.ofDate.map .measure
  | .clock => Moment.Measure.ofClock.map .measure
  | _ => []

def known (c : ColumnRef) : List String :=
  if c.isReference then ofLinks else ofColumns ++ (parts c.scalar).map (·.name)

def partTypeName : Moment.Part → String
  | .measure _ => "IntegerField"
  | .date => "DateField"
  | .clock => "TimeField"

def leftover (names : List String) : String :=
  "__".intercalate names

/-- The column that a column of the type `typeName` and some of the names `all` after it mean: parts
and at last a lookup. -/
def follow (all : List String) (typeName : String) (c : ColumnRef) :
    List String → Except Fault ColumnRef
  | [] => .ok c
  | [lookup] =>
    if (known c).contains lookup then .ok c
    else .error (.unknownLookup lookup typeName (Text.closest lookup (known c)))
  | name :: rest =>
    match (if c.isReference then [] else parts c.scalar).find? (·.name == name) with
    | some p => follow all (partTypeName p) (c.takePart p) rest
    | none =>
      let names := leftover (all.dropWhile (· ≠ name))
      .error (.unknownLookup names typeName (Text.closest name (known c)))

end Lookup

def Schema.resolveNames (schema : Schema) (m : Model) (names : List String) :
    Except Fault ColumnRef :=
  match schema.follow? [] m names with
  | none => .error (.unknownName (names.headD "") (schema.choices m))
  | some place => Lookup.follow place.rest place.typeName place.column.trimmed place.rest

def Schema.resolve (schema : Schema) (m : Model) (path lookup : String) : Except Fault ColumnRef :=
  schema.resolveNames m (Text.doublePieces (path ++ "__" ++ lookup))

end RowFilter
