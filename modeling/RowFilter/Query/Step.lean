import RowFilter.Entity
import RowFilter.Query.Basic
import RowFilter.Query.Link

/-!
Steps. A step narrows a query by a clause, or by a relation and the steps that narrow the rows that
it leads to, to any depth. A relation may be given by its name on the model of the query, which is
then looked up in the registry of entities.
-/

namespace RowFilter

inductive RelationRef where
  | name (s : String)
  | relation (r : Relation)

inductive Step where
  | clause (c : Clause)
  | related (r : RelationRef) (inner : List Step)

def RelationRef.resolve (schema : Schema) (m : Model) : RelationRef → Registering Relation
  | relation r => pure r
  | name s => do
    let entity ← EntityRegistry.register schema m
    match entity.relation? s with
    | some r => pure r
    | none => Registering.lift (.reject (.noRelation m.name s))

namespace Step

mutual

def condition (schema : Schema) : Step → Model → Registering Condition
  | clause c, m => Registering.lift (.ofExcept (schema.clauseCondition m c))
  | related ref inner, m => do
    let r ← ref.resolve schema m
    let (target, join) ← Registering.lift (.ofExcept (schema.openLink r))
    let found ← conditions schema inner target
    Registering.lift (schema.closeLink m r target join found)

def conditions (schema : Schema) : List Step → Model → Registering (List Condition)
  | [], _ => pure []
  | s :: rest, m => do
    let c ← s.condition schema m
    return c :: (← conditions schema rest m)

end

def apply (schema : Schema) (s : Step) (q : Query) : Registering Query := do
  return q.narrow (← s.condition schema q.model)

end Step

end RowFilter
