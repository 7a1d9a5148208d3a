import RowFilter.Text.Numeral
import RowFilter.Text.Quoted
import RowFilter.Value.Basic

/-!
The text of a value. A text is its own text; every other value is written in a notation in which
texts are quoted, lists stand in brackets and mappings in braces. `Value.inspect` writes in that
notation throughout, `Value.display` only inside lists and mappings. A number with more digits than
a numeral may have is not written, and no value that holds one has a text.
-/

namespace RowFilter.Value

def enumerationName : String := "EnumMeta"

def memberText (o : Operator) : String :=
  "<" ++ enumerationName ++ "." ++ o.symbol ++ ": " ++ Text.quoted o.token ++ ">"

mutual

/-- The value in the notation in which texts are quoted. -/
def inspect : Value → String
  | null => "None"
  | bool b => if b then "True" else "False"
  | int n => toString n
  | float x => x.text
  | text s => Text.quoted s
  | list items => "[" ++ ", ".intercalate (inspectAll items) ++ "]"
  | mapping entries => "\x7b" ++ ", ".intercalate (inspectEntries entries) ++ "\x7d"
  | member o => memberText o
  | object x => x.shown

def inspectAll : List Value → List String
  | [] => []
  | v :: rest => v.inspect :: inspectAll rest

def inspectEntries : List (String × Value) → List String
  | [] => []
  | (key, v) :: rest => (Text.quoted key ++ ": " ++ v.inspect) :: inspectEntries rest

end

/-- The text of a value: a text itself, and any other value in the notation of `inspect`, but that
a member of the enumeration is named only, and an object of another type has a text of its own. -/
def display : Value → String
  | text s => s
  | member o => enumerationName ++ "." ++ o.symbol
  | object x => x.text
  | v => v.inspect

mutual

/-- Whether the value can be written: no number in it has too many digits. -/
def hasText : Value → Bool
  | int n => (Nat.toDigits 10 n.natAbs).length ≤ Text.maxDigits
  | list items => allHaveText items
  | mapping entries => entriesHaveText entries
  | _ => true

def allHaveText : List Value → Bool
  | [] => true
  | v :: rest => v.hasText && allHaveText rest

def entriesHaveText : List (String × Value) → Bool
  | [] => true
  | (_, v) :: rest => v.hasText && entriesHaveText rest

end

example : (list [int 1, text "a"]).display = "[1, 'a']" := by decide

example : (mapping [("a", null)]).display = "\x7b'a': None\x7d" := by decide

end RowFilter.Value
