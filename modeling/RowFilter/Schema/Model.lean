import RowFilter.Text.Lowercase
import RowFilter.Text.Pieces

/-!
Models and schemas. A model describes the rows of one table: its fields are columns and links to
other models. Links go to one row, by a reference that holds a key of that row, or to many, by pairs
of keys, which are rows of a model too. A schema is a list of models in order of definition; models
name one another, so whether a name leads anywhere is a question about the schema.

A model may build on others. Its lineage lists the models whose fields it has, itself last, and its
concrete model is the one whose table holds its rows: itself, unless the model is a proxy.
-/

namespace RowFilter

/-- What a column holds, or a part of it. A `natural` is an integer that is not negative, a `clock`
a time of day. -/
inductive Scalar where
  | text
  | integer
  | natural
  | boolean
  | moment
  | date
  | clock
  deriving DecidableEq, Repr

inductive FieldKind where
  | column (type : Scalar) (typeName : String)
  /-- A reference to one row of the target, by the field `targetField` of it or by its key. A
  unique reference is held by one row only. A parent link joins a model to one that it builds on. -/
  | reference (unique : Bool) (target : String) (targetField : Option String) (parentLink : Bool)
  /-- Links to rows of the target. The pairs of keys are the rows of the model `through`, which has
  a reference to either side; where none is named, an assembled schema has a model for them. -/
  | links (target : String) (symmetrical : Option Bool) (through : Option String)
  /-- A reference to a row of any model. -/
  | genericReference
  /-- The rows of a model that refer to this one generically. -/
  | genericLinks (target : String)
  /-- A link to the rows whose `targetFields` agree with the `fields` of a row. -/
  | composite (target : String) (fields targetFields : List String)
  deriving DecidableEq, Repr

/-- A field of a model. The names under which the other side of a link sees it may be given. A row
need not have a value for a nullable field. -/
structure Field where
  name : String
  kind : FieldKind
  isKey : Bool := false
  isNullable : Bool := false
  relatedName : Option String := none
  relatedQueryName : Option String := none
  deriving DecidableEq, Repr

namespace Field

/-- The name under which a row has the value of the field: a reference holds the key of a row. -/
def columnName (f : Field) : String :=
  match f.kind with
  | .reference .. => f.name ++ "_id"
  | _ => f.name

def typeName (f : Field) : String :=
  match f.kind with
  | .column _ typeName => typeName
  | .reference false .. => "ForeignKey"
  | .reference true .. => "OneToOneField"
  | .links .. => "ManyToManyField"
  | .genericReference => "GenericForeignKey"
  | .genericLinks _ => "GenericRelation"
  | .composite .. => "ForeignObject"

def isLocal (f : Field) : Bool :=
  match f.kind with
  | .column .. | .reference .. | .composite .. => true
  | _ => false

def isLinks (f : Field) : Bool :=
  match f.kind with
  | .links .. => true
  | _ => false

def isGeneric (f : Field) : Bool :=
  match f.kind with
  | .genericReference | .genericLinks _ => true
  | _ => false

def isRelation (f : Field) : Bool :=
  match f.kind with
  | .column .. => false
  | _ => true

/-- The name of the model that the field links to, if it links to a certain one. -/
def target? (f : Field) : Option String :=
  match f.kind with
  | .reference _ target _ _ | .links target _ _ | .genericLinks target | .composite target _ _ =>
    some target
  | .column .. | .genericReference => none

def isUnique (f : Field) : Bool :=
  match f.kind with
  | .reference unique _ _ _ => unique
  | _ => false

def isParentLink (f : Field) : Bool :=
  match f.kind with
  | .reference _ _ _ parentLink => parentLink
  | _ => false

end Field

/-- A model. Its key tells it from every other model of its schema; two models may share a label. A
model that is not listed is not found by its name. Rows in which the column `hiddenBy` is true are
not among the rows that a query starts from. -/
structure Model where
  key : String
  app : String
  name : String
  table : String
  fields : List Field
  lineage : List String
  concrete : String
  isProxy : Bool := false
  isListed : Bool := true
  defaultRelatedName : Option String := none
  hiddenBy : Option String := none

namespace Model

def lowerName (m : Model) : String :=
  Text.lower m.name

def label (m : Model) : String :=
  m.app ++ "." ++ m.lowerName

def fullName (m : Model) : String :=
  m.app ++ "." ++ m.name

/-- The fields declared on the model itself: columns and references, then many-to-many links. -/
def ownFields (m : Model) : List Field :=
  m.fields.filter Field.isLocal ++ m.fields.filter Field.isLinks

def keyField? (m : Model) : Option Field :=
  m.fields.find? (·.isKey)

end Model

/-- Models in order of definition, and the names of the apps that may have models. -/
structure Schema where
  models : List Model
  apps : List String := []

namespace Schema

def find? (schema : Schema) (key : String) : Option Model :=
  schema.models.find? (·.key == key)

/-- The model of an app with a name, in which case does not matter. -/
def named? (schema : Schema) (app name : String) : Option Model :=
  schema.models.find? fun m => m.isListed && m.app == app && m.lowerName == Text.lower name

/-- The model that `target` means in a field of `m`: a name of the same app, a name after the name
of its app, or the model itself. -/
def target? (schema : Schema) (m : Model) (target : String) : Option Model :=
  if target = "self" then some m
  else match Text.pieces '.' target with
    | [name] => schema.named? m.app name
    | [app, name] => schema.named? app name
    | _ => none

/-- The model whose table holds the rows of `m`. -/
def concrete (schema : Schema) (m : Model) : Model :=
  (schema.find? m.concrete).getD m

def lineage (schema : Schema) (m : Model) : List Model :=
  m.lineage.filterMap fun key => if key = m.key then some m else schema.find? key

def keyField? (schema : Schema) (m : Model) : Option Field :=
  (schema.concrete m).keyField?

end Schema

end RowFilter
