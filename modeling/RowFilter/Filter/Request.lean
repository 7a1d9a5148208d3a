import RowFilter.Settings
import RowFilter.Query.Clause
import RowFilter.Text.Pieces

/-!
Requests. A request asks a filter for an operator with an operand, a mapping with the two keys
`operator` and `value`. `Request.read` checks its form and the number of operands, and what it
rejects never reaches a query; `Request.clause` is what it asks of a column.
-/

namespace RowFilter

/-- The tokens of an operand between commas, untrimmed; null has none. -/
def Value.tokens : Value → List String
  | null => []
  | v => Text.pieces ',' v.display

/-- Cuts the text of an operand, which it must have, into tokens. -/
def splitValues (v : Value) : Except Fault (List String) :=
  if v.hasText then .ok v.tokens else .error .longNumber

theorem splitValues_eq_ok_iff {v : Value} {tokens : List String} :
    splitValues v = .ok tokens ↔ v.hasText = true ∧ v.tokens = tokens := by
  unfold splitValues
  split <;> simp_all

structure Request where
  operator : Operator
  operand : Value

namespace Request

def checkCount (settings : Settings) (name : String) (operator : Operator) (operand : Value) :
    Except Fault Unit :=
  match operator with
  | .between => do
    let count := (← splitValues operand).length
    if count = 2 then .ok () else .error (.rejected (.boundCount name count))
  | .isIn => do
    let count := (← splitValues operand).length
    let limit := settings.maxInValues
    if ← settings.exceedsLimit count then
      .error (limit.told (.rejected (.tooManyValues name limit count)))
    else .ok ()
  | _ => .ok ()

def read (settings : Settings) (name : String) (v : Value) : Except Fault Request :=
  match v with
  | .mapping entries =>
    match Mapping.find? "operator" entries, Mapping.find? "value" entries with
    | none, _ => .error (.rejected (.noOperator name))
    | some _, none => .error (.rejected (.noValue name))
    | some token, some operand =>
      match token.asOperator? with
      | none => .error (.rejected (.badOperator name token))
      | some operator => do
        checkCount settings name operator operand
        return { operator, operand }
  | _ => .error (.rejected (.notMapping name))

def clause (column : String) (r : Request) : Clause :=
  let tokens : Value := .list (r.operand.tokens.map .text)
  match r.operator with
  | .between => .between column tokens
  | .isIn => .isIn column tokens
  | .null => .null column
  | .notNull => .notNull column
  | .contains => .compare column (.text searchToken) r.operand
  | o => .compare column (.text o.token) r.operand

end Request

end RowFilter
