import RowFilter.Decimal
import RowFilter.Mapping
import RowFilter.Operator

/-!
The data that requests carry. A value may be of any shape, since nothing is known about a request
before it has been read: filters say what they make of each shape.
-/

namespace RowFilter

/-- What is known of a value of some other type: the name of the type, whether the value counts as
true, its text, and how it is written among other values. -/
structure Object where
  shape : String
  truthy : Bool
  text : String
  shown : String
  deriving Inhabited

inductive Value where
  | null
  | bool (b : Bool)
  | int (n : Int)
  | float (x : Decimal)
  | text (s : String)
  | list (items : List Value)
  | mapping (entries : List (String × Value))
  | member (o : Operator)
  | object (x : Object)
  deriving Inhabited

namespace Value

/-- Whether the value counts as true where a truth value is wanted: null, zero and what is empty do
not. -/
def truthy : Value → Bool
  | null => false
  | bool b => b
  | int n => n != 0
  | float x => !x.isZero
  | text s => s != ""
  | list items => !items.isEmpty
  | mapping entries => !entries.isEmpty
  | member _ => true
  | object x => x.truthy

def isNull : Value → Bool
  | null => true
  | _ => false

def asText? : Value → Option String
  | text s => some s
  | _ => none

def asOperator? (v : Value) : Option Operator :=
  v.asText?.bind Operator.ofToken?

/-- The operator that an unchecked value is taken for: the one it names, or a member of the
enumeration whose token is one character or a word. -/
def meantOperator? : Value → Option Operator
  | member o => if o.hasPlainToken then some o else none
  | v => v.asOperator?

end Value

end RowFilter
