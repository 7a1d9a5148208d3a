import RowFilter.Value.Basic

/-!
Typed input. Where operators are members of an enumeration, a request comes as a mapping whose
operator is a member and whose value may be left out. `TypedInput.toValue` makes the request that
filters read.
-/

namespace RowFilter.TypedInput

def untyped : Value → Value
  | .member o => .text o.token
  | v => v

/-- The request of a typed input; what is no mapping is left for filters to reject. -/
def toValue (input : Value) : Value :=
  match input with
  | .mapping entries =>
    let entries := match Mapping.find? "operator" entries with
      | some operator => Mapping.insert "operator" (untyped operator) entries
      | none => entries
    .mapping (if Mapping.contains "value" entries then entries
      else entries ++ [("value", .null)])
  | v => v

end RowFilter.TypedInput
