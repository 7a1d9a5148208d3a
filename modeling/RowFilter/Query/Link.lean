import RowFilter.Outcome
import RowFilter.Query.Clause
import RowFilter.Relation

/-!
Conditions on linked rows. By a relation, rows of a model are kept if the relation leads to a
visible row of the related model that meets conditions of its own. The join key of the relation is a
name on the related model, the outer key one on the model of the rows. A link is opened by finding
the related model and the join, and closed once the inner conditions are known: then the log tells
how the rows are joined, and only then is the outer key looked up.
-/

namespace RowFilter.Schema

def outerColumn (schema : Schema) (m : Model) (key : String) : Except Fault ColumnRef :=
  match schema.follow? [] m [key] with
  | some place => .ok place.column.trimmed
  | none => .error (.unknownName key (schema.choices m))

def relatedModel (schema : Schema) (r : Relation) : Except Fault Model :=
  match schema.find? r.related with
  | some m => .ok m
  | none => .error (.unknownModel r.relatedLabel r.related)

def openLink (schema : Schema) (r : Relation) : Except Fault (Model × ColumnRef) := do
  let related ← schema.relatedModel r
  return (related, ← schema.resolveNames related (Text.doublePieces r.joinKey))

/-- The condition on rows of `m` that the relation leads to a row that meets the inner ones. -/
def closeLink (schema : Schema) (m : Model) (r : Relation) (related : Model) (join : ColumnRef)
    (inner : List Condition) : Outcome Condition := do
  .debug s!"Correlated EXISTS on {r.storageName} via {r.joinKey}=OuterRef({r.outerKey})"
  let outer ← .ofExcept (schema.outerColumn m r.outerKey)
  return .linked ⟨related, join, outer⟩ inner

end RowFilter.Schema
