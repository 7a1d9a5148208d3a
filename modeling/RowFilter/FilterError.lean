import RowFilter.Text.Quoted
import RowFilter.Value.Text

/-!
Errors of filters. Every error belongs to a class, which fixes the status and title it is reported
under; classes form a tree below the general one. An error carries a message and, if it is about
one filter, that filter's key. The errors that the library raises itself each have a cause, a
`Rejection`, and `Rejection.error` gives the class, the message and the key of each cause.
-/

namespace RowFilter

inductive ErrorClass where
  | general
  | malformed
  | unknownFilter
  | unsupportedOperator
  | unknownRelation
  | unsupportedDepth
  deriving DecidableEq, Repr

namespace ErrorClass

def name : ErrorClass → String
  | general => "OperatorFilterError"
  | malformed => "MalformedFilterError"
  | unknownFilter => "UnknownFilterError"
  | unsupportedOperator => "UnsupportedOperatorError"
  | unknownRelation => "UnknownRelationError"
  | unsupportedDepth => "UnsupportedRelationDepthError"

/-- The class and those it belongs to, up to the general one. -/
def lineage : ErrorClass → List ErrorClass
  | general => [general]
  | malformed => [malformed, general]
  | unknownFilter => [unknownFilter, malformed, general]
  | unsupportedOperator => [unsupportedOperator, general]
  | unknownRelation => [unknownRelation, general]
  | unsupportedDepth => [unsupportedDepth, general]

def status : ErrorClass → Nat
  | unknownRelation => 422
  | _ => 400

def title : ErrorClass → String
  | general => "Invalid filter"
  | malformed => "Malformed filter"
  | unknownFilter => "Unknown filter"
  | unsupportedOperator => "Unsupported filter operator"
  | unknownRelation => "Unknown filter relationship"
  | unsupportedDepth => "Unsupported filter relationship depth"

end ErrorClass

/-- What an error tells besides its message, by class. -/
inductive ErrorDetail where
  | general
  | malformed
  | unknownFilter
  | unsupportedOperator (operator : Value) (allowed : List String)
  | unknownRelation (relation : Option String)
  | unsupportedDepth (depth : Option Int)

def ErrorDetail.errorClass : ErrorDetail → ErrorClass
  | general => .general
  | malformed => .malformed
  | unknownFilter => .unknownFilter
  | unsupportedOperator _ _ => .unsupportedOperator
  | unknownRelation _ => .unknownRelation
  | unsupportedDepth _ => .unsupportedDepth

structure FilterError where
  detail : ErrorDetail
  message : String
  key : Option String := none

def FilterError.status (e : FilterError) : Nat :=
  e.detail.errorClass.status

inductive Rejection where
  | notMapping (name : String)
  | noOperator (name : String)
  | noValue (name : String)
  | badOperator (name : String) (operator : Value)
  | boundCount (name : String) (count : Nat)
  | tooManyValues (name : String) (limit : Value) (count : Nat)
  | tooDeep (name : String) (depth : Nat)
  | noOwner (name relation : String)
  | undeclared (name relation owner : String)
  | unknownKey (key : String)
  | filtersNotMapping
  | foreignColumn (column table : String)
  | badComparator (operator : Value)
  | twoBounds (column : String) (count : Nat)
  | noRelation (model relation : String)

namespace Rejection

def comparators : List String := ["=", ">", "<", ">=", "<=", "like", "<>"]

def detail : Rejection → ErrorDetail
  | notMapping _ | noOperator _ | noValue _ | boundCount _ _ | tooManyValues _ _ _
  | filtersNotMapping | foreignColumn _ _ | twoBounds _ _ => .malformed
  | badOperator _ operator => .unsupportedOperator operator Operator.tokens
  | badComparator operator => .unsupportedOperator operator comparators
  | tooDeep _ depth => .unsupportedDepth (some depth)
  | noOwner _ relation | undeclared _ relation _ | noRelation _ relation =>
    .unknownRelation (some relation)
  | unknownKey _ => .unknownFilter

def message : Rejection → String
  | notMapping name => s!"Expecting filter {name} to be an object."
  | noOperator name => s!"Expecting filter {name} to have an operator."
  | noValue name => s!"Expecting filter {name} to have a value."
  | badOperator _ _ =>
    "Bad filter operator, operator can be one of " ++ ", ".intercalate Operator.tokens
  | boundCount name count =>
    s!"Expecting filter {name} to have two comma separated bounds for between, got {count}."
  | tooManyValues name limit count =>
    s!"Expecting filter {name} to have at most {limit.display} values, got {count}."
  | tooDeep name _ => s!"Operator filter {name} doesn't support relationships of relationships."
  | noOwner name relation =>
    s!"Operator filter {name} needs an owner entity to filter through "
      ++ Text.quoted relation ++ "."
  | undeclared _ relation owner =>
    "Relationship " ++ Text.quoted relation ++ s!" is not declared on {owner}."
  | unknownKey key => s!"Filter parameter {key} is not allowed."
  | filtersNotMapping => "Expecting filters to be an object."
  | foreignColumn column table =>
    "Column " ++ Text.quoted column ++ " does not belong to " ++ Text.quoted table ++ "."
  | badComparator operator =>
    "Query builder cannot compare with operator " ++ operator.inspect ++ "."
  | twoBounds column count =>
    "Between on " ++ Text.quoted column ++ s!" needs exactly two bounds, got {count}."
  | noRelation model relation => s!"{model} has no relationship " ++ Text.quoted relation ++ "."

/-- The key of the filter that a cause is about. What goes wrong inside a query is not about a
filter, and neither are incoming filters as a whole. -/
def key : Rejection → Option String
  | notMapping name | noOperator name | noValue name | badOperator name _ | boundCount name _
  | tooManyValues name _ _ | tooDeep name _ | noOwner name _ | undeclared name _ _ => some name
  | unknownKey key => some key
  | filtersNotMapping | foreignColumn _ _ | badComparator _ | twoBounds _ _ | noRelation _ _ => none

def error (r : Rejection) : FilterError :=
  { detail := r.detail, message := r.message, key := r.key }

end Rejection

end RowFilter
