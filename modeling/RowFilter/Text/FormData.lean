import RowFilter.Mapping
import RowFilter.Text.Pieces
import RowFilter.Text.Utf8

/-!
Form data, the encoding of parameters in the query part of an address. Parameters are joined by
`&`, name and value by `=`, a space is `+`, and any byte may be written as `%` and two hexadecimal
digits. Maximal runs of ASCII characters are decoded as UTF-8, and a `%` that starts no such pair
stands for itself.
-/

namespace RowFilter.Text.FormData

def hexValue? (c : Char) : Option Nat :=
  if c.isDigit then some (c.toNat - '0'.toNat)
  else if 'a' ≤ c ∧ c ≤ 'f' then some (c.toNat - 'a'.toNat + 10)
  else if 'A' ≤ c ∧ c ≤ 'F' then some (c.toNat - 'A'.toNat + 10)
  else none

def bytesOf : List Char → List Nat
  | [] => []
  | [c] => [c.toNat]
  | [c, d] => [c.toNat, d.toNat]
  | c :: d :: e :: cs =>
    match c, hexValue? d, hexValue? e with
    | '%', some high, some low => (16 * high + low) :: bytesOf cs
    | _, _, _ => c.toNat :: bytesOf (d :: e :: cs)

/-- Decodes the characters of a name or value, `ascii` being the run of ASCII characters read
last, in reverse. -/
def unescapeAfter (ascii : List Char) : List Char → List Char
  | [] => Utf8.decode (bytesOf ascii.reverse)
  | c :: cs =>
    if c.toNat < 128 then unescapeAfter (c :: ascii) cs
    else Utf8.decode (bytesOf ascii.reverse) ++ c :: unescapeAfter [] cs

def unescape (cs : List Char) : String :=
  .ofList (unescapeAfter [] (cs.map fun c => if c = '+' then ' ' else c))

/-- The name and value of one parameter; the value is empty if there is no `=`. -/
def parameter (cs : List Char) : String × String :=
  match firstCutAux '=' cs with
  | some (name, value) => (unescape name, unescape value)
  | none => (unescape cs, "")

def parameters (query : String) : List (String × String) :=
  ((piecesAux '&' query.toList).filter (· ≠ [])).map parameter

def maxParameters : Nat := 1000

/-- Whether a query has room for more parameters than it may: for one more than it has `&`. -/
def isOverfull (query : String) : Bool :=
  maxParameters ≤ query.toList.count '&'

def lastValues (query : String) : Mapping String :=
  Mapping.ofList (parameters query)

example : lastValues "a=1&b&&a=%C3%A9+%" = [("a", "é %"), ("b", "")] := by decide

end RowFilter.Text.FormData
