import RowFilter.FilterError
import RowFilter.Fault

/-!
Settings. Projects set options in a mapping of names to values; options that they leave out have
defaults. The values are not checked, so an option says what it makes of a value of any shape: the
limit on the values of a membership test applies if it is true, and rejections are logged if that
option is true.
-/

namespace RowFilter

structure Settings where
  maxInValues : Value
  logRejectedFilters : Value
  queryParam : Value

namespace Settings

def defaults : Mapping Value :=
  [("max_in_values", .int 500), ("log_rejected_filters", .bool true),
    ("query_param", .text "filter")]

def merge (parts : List (Mapping Value)) : Mapping Value :=
  parts.foldl Mapping.update []

/-- The settings of a project, from the value that it gives for all of them: what is no mapping
sets nothing. -/
def ofProject (project : Value) : Settings :=
  let own : Mapping Value :=
    match project with
    | .mapping entries => entries
    | _ => []
  let merged := merge [defaults, own]
  let option (name : String) : Value := (Mapping.find? name merged).getD .null
  { maxInValues := option "max_in_values"
    logRejectedFilters := option "log_rejected_filters"
    queryParam := option "query_param" }

/-- Whether a number of values is more than the limit, if there is a limit. -/
def exceedsLimit (s : Settings) (count : Nat) : Except Fault Bool :=
  if !s.maxInValues.truthy then .ok false
  else match s.maxInValues with
    | .int n => .ok (n < count)
    | .bool b => .ok (b && 1 < count)
    | .float x => .ok (x.lessThanNat count)
    | v => .error (.incomparable v.shape)

def logsRejections (s : Settings) : Bool :=
  s.logRejectedFilters.truthy

end Settings

end RowFilter
