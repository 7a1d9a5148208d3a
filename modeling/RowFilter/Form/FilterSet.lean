import RowFilter.Filter.Basic
import RowFilter.Form.Pair

/-!
Filter sets. A set has fields, each of which filters by a form pair. The filter of a field is made
when the field is first used on a value, for the model it is used on unless the field has an owner,
and kept: the doubled underscores of the field's name join the segments of the filter's column.
-/

namespace RowFilter

/-- A field that filters, with its filter once that is made. -/
structure FilterField where
  fieldName : String
  owner : Option OwnerRef := none
  isDistinct : Bool := false
  made : Option Filter := none

namespace FilterField

/-- The owner of the filter that the field makes on a model; an empty label is none. -/
def ownerOn (field : FilterField) (m : Model) : OwnerRef :=
  match field.owner with
  | none | some (.label "") => .model m
  | some owner => owner

def hasEntity (field : FilterField) : Bool :=
  match field.owner with
  | some (.entity _) => true
  | _ => false

def column (field : FilterField) : String :=
  ".".intercalate (Text.doublePieces field.fieldName)

def filter (schema : Schema) (m : Model) (field : FilterField) : Registering Filter :=
  match field.made with
  | some f => pure f
  | none => Filter.make schema field.fieldName (some field.column) (some (field.ownerOn m))

/-- Narrows a query by a value and yields the field as it is afterwards. A blank value asks for
nothing and makes no filter. -/
def apply (schema : Schema) (settings : Settings) (q : Query) (v : Value) (field : FilterField)
    (registry : EntityRegistry) : Outcome Query × FilterField × EntityRegistry :=
  if FormPair.isBlank v then (pure q, field, registry)
  else
    let (made, registry) := (field.filter schema q.model).run registry
    match made.result with
    | .error e => (⟨made.log, .error e⟩, field, registry)
    | .ok f =>
      let narrowed : Outcome Query := do
        let narrowed ← f.apply schema settings q v
        return if field.isDistinct then narrowed.distinct else narrowed
      (⟨made.log ++ narrowed.log, narrowed.result⟩, { field with made := some f }, registry)

end FilterField

abbrev FilterSet := List (String × FilterField)

namespace FilterSet

/-- Narrows a query by the parameters of a form, field by field. A field whose inputs are not valid
is passed over. -/
def applyFields (schema : Schema) (settings : Settings) (data : Mapping String) :
    FilterSet → Query → Registering Query
  | [], q => pure q
  | (name, field) :: rest, q =>
    let (operator, operand) := FormPair.collect name data
    match FormPair.clean false (.list [operator, operand]) with
    | .error _ => applyFields schema settings data rest q
    | .ok v => do
      let used : Registering Query := fun registry =>
        let (narrowed, _, registry) := field.apply schema settings q v registry
        (narrowed, registry)
      applyFields schema settings data rest (← used)

/-- Narrows a query by the parameters of a form; without a form it stays as it is. Every use takes a
copy of the fields, and an entity that owns one cannot be copied. -/
def apply (schema : Schema) (settings : Settings) (data : Option (Mapping String))
    (set : FilterSet) (q : Query) : Registering Query :=
  if set.any (·.2.hasEntity) then Registering.lift (.fail .entityInForm)
  else match data with
    | none => pure q
    | some data => applyFields schema settings data set q

end FilterSet

end RowFilter
