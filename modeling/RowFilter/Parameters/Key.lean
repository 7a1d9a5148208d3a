import RowFilter.Fault
import RowFilter.Text.Numeral

/-!
Bracketed keys. The name of a parameter that carries a filter is a head followed by texts in
brackets, neither of which hold brackets themselves; one newline may follow. `BracketKey.read?`
takes such names apart, `BracketKey.write` writes them, and `BracketKey.form?` tells what a key
sets: a value under a name, an entry of the mapping under a name, or an entry of the mapping at an
index under a name.
-/

namespace RowFilter

/-- A head and the texts in brackets that follow it. -/
structure BracketKey where
  head : String
  parts : List String
  deriving DecidableEq, Repr

def isBracket (c : Char) : Bool :=
  c == '[' || c == ']'

/-- The texts in brackets that characters consist of, up to one final newline; `part` has what was
read since a bracket was opened, in reverse. -/
def groups? : (part : Option (List Char)) → List Char → Option (List String)
  | none, [] => some []
  | none, ['\n'] => some []
  | none, '[' :: cs => groups? (some []) cs
  | none, _ => none
  | some part, ']' :: cs => (groups? none cs).map (.ofList part.reverse :: ·)
  | some _, '[' :: _ => none
  | some part, c :: cs => groups? (some (c :: part)) cs
  | some _, [] => none

namespace BracketKey

def read? (name : String) : Option BracketKey :=
  let head := name.toList.takeWhile (!isBracket ·)
  match groups? none (name.toList.dropWhile (!isBracket ·)) with
  | some (part :: parts) => if head = [] then none else some ⟨.ofList head, part :: parts⟩
  | _ => none

def write (key : BracketKey) : String :=
  key.head ++ "".intercalate (key.parts.map fun part => "[" ++ part ++ "]")

inductive Form where
  | value
  | entry (sub : String)
  | indexed (digits sub : String)
  deriving DecidableEq, Repr

def isIndex (s : String) : Bool :=
  s ≠ "" && s.toList.all Text.isDigit

def formOf? : List String → Option Form
  | [] => some .value
  | [sub] => if sub ≠ "" then some (.entry sub) else none
  | [digits, sub] => if isIndex digits && sub ≠ "" then some (.indexed digits sub) else none
  | _ => none

/-- The index that digit characters write. Only decimal digits do, and not too many of them. -/
def readIndex (digits : String) : Except Fault Nat :=
  let values := digits.toList.map Text.decimalValue?
  let leading := (values.takeWhile (·.isSome)).filterMap id
  if Text.maxDigits < leading.length then .error (.longIndex leading.length)
  else if leading.length = values.length then .ok (Text.ofDigits leading)
  else .error (.badIndex digits)

example : read? "filter[age][value]" = some ⟨"filter", ["age", "value"]⟩ := by decide

example : read? "filter[a]b" = none := by decide

end BracketKey

end RowFilter
