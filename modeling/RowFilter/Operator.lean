/-!
The operators of a filter. Each has a token, the text by which a request names it, and a symbol,
the name of the member that stands for it where operators are an enumeration.
-/

namespace RowFilter

inductive Operator where
  | equal
  | greater
  | less
  | greaterOrEqual
  | lessOrEqual
  | notEqual
  | between
  | isIn
  | null
  | notNull
  | contains
  deriving DecidableEq, Repr

namespace Operator

def all : List Operator :=
  [equal, greater, less, greaterOrEqual, lessOrEqual, notEqual, between, isIn, null, notNull,
    contains]

def comparisons : List Operator :=
  [equal, greater, less, greaterOrEqual, lessOrEqual, notEqual]

/-- Whether the operator takes the tokens of its operand, and not the operand as a whole. -/
def takesTokens : Operator → Bool
  | between | isIn => true
  | _ => false

def token : Operator → String
  | equal => "="
  | greater => ">"
  | less => "<"
  | greaterOrEqual => ">="
  | lessOrEqual => "<="
  | notEqual => "<>"
  | between => "between"
  | isIn => "in"
  | null => "null"
  | notNull => "not_null"
  | contains => "contains"

def hasPlainToken : Operator → Bool
  | greaterOrEqual | lessOrEqual | notEqual => false
  | _ => true

def symbol : Operator → String
  | equal => "EQ"
  | greater => "GT"
  | less => "LT"
  | greaterOrEqual => "GTE"
  | lessOrEqual => "LTE"
  | notEqual => "NEQ"
  | between => "BETWEEN"
  | isIn => "IN"
  | null => "NULL"
  | notNull => "NOT_NULL"
  | contains => "CONTAINS"

def ofToken? (s : String) : Option Operator :=
  all.find? (·.token = s)

def ofSymbol? (s : String) : Option Operator :=
  all.find? (·.symbol = s)

def tokens : List String :=
  all.map token

theorem ofToken?_token (o : Operator) : ofToken? o.token = some o := by
  cases o <;> decide

theorem ofToken?_eq_some_iff {s : String} {o : Operator} : ofToken? s = some o ↔ s = o.token := by
  constructor
  · intro h
    have := List.find?_some h
    simp_all
  · rintro rfl
    exact ofToken?_token o

end Operator

end RowFilter
