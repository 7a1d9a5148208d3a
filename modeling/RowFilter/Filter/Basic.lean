import RowFilter.Entity
import RowFilter.Filter.Request
import RowFilter.Query.Basic
import RowFilter.Query.Link
import RowFilter.Text.SnakeCase

/-!
Filters. A filter narrows a query to the rows that meet a request. Its column is a path of the
query's model or, in two segments joined by a dot, a relation of the filter's owner and a column of
the related model; then a row is kept if the relation leads from it to a row that meets the request.

A request is refused in a fixed order: for the number of segments, for its own form, for the
relation, and last for what the query makes of it. `Filter.condition` decides this, and
`Filter.apply` adds the log: a record of every filter that was applied, and a warning for every
rejection.
-/

namespace RowFilter

/-- A filter that narrows queries by a column. Of singular filters one is enough to tell a row. -/
structure Filter where
  name : String
  column : String
  owner : Option Entity
  isSingular : Bool := false

namespace Filter

def maxSegments : Nat := 2

/-- A filter of a name. Its column is the name in snake case unless another is given. -/
def make (schema : Schema) (name : String) (column : Option String) (owner : Option OwnerRef) :
    Registering Filter := do
  let column := match column with
    | none | some "" => Text.snakeCase name
    | some column => column
  return { name, column, owner := ← EntityRegistry.resolve? schema owner }

def key (f : Filter) : String :=
  f.name

def segments (f : Filter) : List String :=
  Text.pieces '.' f.column

def inspect (f : Filter) : String :=
  let owner : Value := (f.owner.map fun e => Value.text e.label).getD .null
  "OperatorFilter(name=" ++ Text.quoted f.name ++ ", column=" ++ Text.quoted f.column
    ++ ", owner=" ++ owner.inspect ++ ")"

def relation (f : Filter) (name : String) : Except Fault Relation :=
  match f.owner with
  | none => .error (.rejected (.noOwner f.name name))
  | some owner =>
    match owner.relation? name with
    | some r => .ok r
    | none => .error (.rejected (.undeclared f.name name owner.label))

/-- What an operator that was not checked before asks of a column. A comparison is passed on as it
was given. -/
def clause (f : Filter) (column : String) (operator operand : Value) : Except Fault Clause :=
  match operator.meantOperator? with
  | some o =>
    if Operator.comparisons.contains o then .ok (.compare column operator operand)
    else if o.takesTokens then (fun _ => Request.clause column ⟨o, operand⟩) <$> splitValues operand
    else .ok (Request.clause column ⟨o, operand⟩)
  | none => .error (.rejected (.badOperator f.name operator))

def conditionOf (schema : Schema) (f : Filter) (m : Model) (r : Request) : Outcome Condition :=
  match f.segments with
  | [name, column] => do
    let relation ← .ofExcept (f.relation name)
    let (related, join) ← .ofExcept (schema.openLink relation)
    let qualified := relation.storageName ++ "." ++ column
    let inner ← .ofExcept (schema.clauseCondition related (r.clause qualified))
    schema.closeLink m relation related join [inner]
  | _ => .ofExcept (schema.clauseCondition m (r.clause f.column))

/-- Reads a request and makes its condition on rows of a model. The operand must be written in the
end, to be told in the log. -/
def condition (schema : Schema) (settings : Settings) (f : Filter) (m : Model) (v : Value) :
    Outcome (Request × Condition) := do
  let count := f.segments.length
  if maxSegments < count then .reject (.tooDeep f.name (count - 1))
  else
    let r ← .ofExcept (Request.read settings f.name v)
    let c ← f.conditionOf schema m r
    let _ ← .ofExcept r.operand.written
    return (r, c)

def appliedRecord (f : Filter) (r : Request) : Record :=
  { level := .debug
    message := s!"Applied filter {f.name}: {f.column} {r.operator.token} {r.operand.inspect}" }

def rejectedRecord (f : Filter) (e : FilterError) : Record :=
  { level := .warning
    message := s!"Rejected filter {f.name}: {e.message}"
    key := some f.name
    status := some e.status }

def apply (schema : Schema) (settings : Settings) (f : Filter) (q : Query) (v : Value) :
    Outcome Query :=
  let attempt := f.condition schema settings q.model v
  match attempt.result with
  | .ok (r, c) => ⟨attempt.log ++ [f.appliedRecord r], .ok (q.narrow c)⟩
  | .error fault =>
    let warnings := match fault with
      | .rejected r => if settings.logsRejections then [f.rejectedRecord r.error] else []
      | _ => []
    ⟨attempt.log ++ warnings, .error fault⟩

end Filter

end RowFilter
