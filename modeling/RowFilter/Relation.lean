import RowFilter.Outcome
import RowFilter.Schema.Names

/-!
Relation tables. A relation of a model leads from its rows to related rows: those whose `joinKey`
agrees with the `outerKey` of the row. Every reference and many-to-many link gives a relation on
the model that declares it, and another on the model it leads to unless that side is hidden. The
table of a model has its relations under their names; what cannot be followed is left out, and the
log tells why.
-/

namespace RowFilter

/-- How many rows a relation joins on either side. -/
inductive RelationKind where
  | manyToOne
  | oneToOne
  | oneToMany
  | manyToMany
  deriving DecidableEq, Repr

def RelationKind.name : RelationKind → String
  | manyToOne => "many_to_one"
  | oneToOne => "one_to_one"
  | oneToMany => "one_to_many"
  | manyToMany => "many_to_many"

structure Relation where
  name : String
  related : String
  relatedLabel : String
  storageName : String
  joinKey : String
  outerKey : String
  kind : RelationKind
  deriving DecidableEq, Repr

abbrev RelationTable := Mapping Relation

/-- The field that `name` means in the target of a link of `source`, which must be declared on the
concrete model of the target. -/
def Schema.targetNamed (schema : Schema) (source target : Model) (f : Field) (name : String) :
    Except Fault Field :=
  match schema.forward? target name with
  | none => .error (.noField target.name name)
  | some (owner, field) =>
    if owner.key = target.concrete then .ok field
    else
      let reference := source.fullName ++ "." ++ f.name
      .error (.foreignTarget reference field.name (schema.concrete target).fullName)

def Schema.fieldNamed (schema : Schema) (m : Model) (name : String) : Except Fault Field :=
  match schema.forward? m name, schema.reverse? m name with
  | some (_, field), _ | none, some (_, field) => .ok field
  | none, none => .error (.noField m.name name)

/-- The field of the target that a composite link agrees with. The link names as many fields of
`source`, where `self` is the link, as of the target; all of them must exist, and be one on either
side. -/
def Schema.compositeTarget (schema : Schema) (source target : Model)
    (fields targetFields : List String) : Except Fault Field := do
  if fields.isEmpty || fields.length != targetFields.length then throw .unevenColumns
  let found ← (fields.zip targetFields).mapM fun (name, other) => do
    if name ≠ "self" then discard (schema.fieldNamed source name)
    schema.fieldNamed target other
  match found with
  | [field] => return field
  | _ => throw .manyTargets

/-- The field of the target whose values the rows of `source` hold to refer to it. -/
def Schema.targetField (schema : Schema) (source target : Model) (f : Field) :
    Except Fault Field :=
  match f.kind with
  | .reference _ _ (some name) _ => schema.targetNamed source target f name
  | .composite _ fields targetFields => schema.compositeTarget source target fields targetFields
  | _ =>
    match schema.keyField? target with
    | some key => .ok key
    | none => .error (.noField target.name "pk")

def Field.relationKind (f : Field) : RelationKind :=
  match f.kind with
  | .links .. => .manyToMany
  | .reference true .. => .oneToOne
  | _ => .manyToOne

def RelationKind.dual : RelationKind → RelationKind
  | manyToOne => oneToMany
  | oneToMany => manyToOne
  | oneToOne => oneToOne
  | manyToMany => manyToMany

def Schema.forwardRelation (schema : Schema) (owner target : Model) (f : Field) :
    Except Fault (Option Relation) :=
  let relation (joinKey outerKey : String) : Relation :=
    { name := f.name, related := target.key, relatedLabel := target.label
      storageName := target.table, joinKey, outerKey, kind := f.relationKind }
  if f.isLinks then
    .ok (if owner.hidesBack f then none else some (relation (owner.queryName f) "pk"))
  else do
    let field ← schema.targetField owner target f
    return some (relation field.name f.columnName)

def Schema.reverseRelation (schema : Schema) (source target : Model) (f : Field) :
    Except Fault (Option Relation) :=
  let name := source.accessor f
  if name = "" || isHiddenName name then .ok none
  else do
    let outerKey ← if f.isLinks then .ok "pk"
      else (·.columnName) <$> schema.targetField source target f
    return some
      { name, related := source.key, relatedLabel := source.label
        storageName := source.table, joinKey := f.name, outerKey, kind := f.relationKind.dual }

def skipRelation (m : Model) (f : Field) (reason : String) : Outcome (Option Relation) := do
  Outcome.debug s!"Skipping relation {f.name} on {m.name}: {reason}"
  return none

def Schema.relationOf (schema : Schema) (m : Model) : Member → Outcome (Option Relation)
  | .reverse source f target => .ofExcept (schema.reverseRelation source target f)
  | .forward owner f =>
    if !f.isRelation then return none
    else match f.target?.bind (schema.target? owner) with
      | none => skipRelation m f "no concrete related model"
      | some target =>
        match f.kind with
        | .reference .. | .links .. => .ofExcept (schema.forwardRelation owner target f)
        | _ => skipRelation m f s!"unsupported field type {f.typeName}"

/-- The table with the relations that members of `m` are; of two with one name the later is kept. -/
def Schema.collectRelations (schema : Schema) (m : Model) :
    RelationTable → List Member → Outcome RelationTable
  | table, [] => return table
  | table, x :: rest => do
    match ← schema.relationOf m x with
    | some relation => schema.collectRelations m (table.insert relation.name relation) rest
    | none => schema.collectRelations m table rest

def Schema.relationTable (schema : Schema) (m : Model) : Outcome RelationTable :=
  schema.collectRelations m [] (schema.members m)

end RowFilter
