import RowFilter.Fault
import RowFilter.Text.FormData

/-!
Form pairs. A form carries a request in two inputs, one for the operator and one for the operand.
`FormPair.clean` makes a value of the inputs: a mapping, in which a blank operand is null and a
blank operator is left out, or null if both inputs are blank. `FormPair.decompress` fills the inputs
from a value again.
-/

namespace RowFilter.FormPair

def isBlank : Value → Bool
  | .null | .text "" | .list [] | .mapping [] => true
  | _ => false

def pair (operator operand : Value) : Value :=
  let operand := match operand with
    | .text "" => .null
    | v => v
  .mapping (("value", operand) :: if operator.truthy then [("operator", operator)] else [])

/-- The mapping of two items that stand in a list, or are the characters of a text or the keys of a
mapping; null for what is empty. -/
def compress (v : Value) : Except Fault Value :=
  let ofItems : List Value → Except Fault Value
    | [operator, operand] => .ok (pair operator operand)
    | items => .error (.twoParts items.length)
  if !v.truthy then .ok .null
  else match v with
    | .text s => ofItems (s.toList.map fun c => .text (.singleton c))
    | .list items => ofItems items
    | .mapping entries => ofItems (entries.map fun (key, _) => .text key)
    | v => .error (.notPair v.shape)

def inputText (v : Value) : Except Fault String :=
  if isBlank v then .ok "" else v.written

def checkText (text : String) : Except FormFault String :=
  if text.toList.contains '\x00' then .error .nullCharacters else .ok text

/-- The mapping of two inputs. What is wrong with both is told once. -/
def cleanPair (operator operand : Value) : Except Fault Value := do
  match checkText (← inputText operator), checkText (← inputText operand) with
  | .ok operator, .ok operand => compress (.list [.text operator, .text operand])
  | .error a, .error b => .error (.form [a, b].eraseDups)
  | .error a, .ok _ => .error (.form [a])
  | .ok _, .error b => .error (.form [b])

/-- The value of a form's inputs. A missing input is blank, and more than two are not looked at. -/
def clean (required : Bool) (inputs : Value) : Except Fault Value :=
  let blank : Except Fault Value :=
    if required then .error (.form [.required]) else compress (.list [])
  if !inputs.truthy then blank
  else match inputs with
    | .list items =>
      if items.all isBlank then blank
      else cleanPair (items[0]?.getD .null) (items[1]?.getD .null)
    | _ => .error (.form [.notList])

def decompress (v : Value) : Value × Value :=
  match v with
  | .mapping entries =>
    ((Mapping.find? "operator" entries).getD .null, (Mapping.find? "value" entries).getD .null)
  | _ => (.null, .null)

def suffixes : List String := ["operator", "value"]

def inputName (name suffix : String) : String :=
  name ++ "_" ++ suffix

def collect (name : String) (data : Mapping String) : Value × Value :=
  let input (suffix : String) : Value :=
    ((Mapping.find? (inputName name suffix) data).map .text).getD .null
  (input "operator", input "value")

end RowFilter.FormPair
