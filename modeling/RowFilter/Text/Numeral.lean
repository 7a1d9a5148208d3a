import RowFilter.Text.Digit

/-!
Reading integers. A numeral is a sign, if any, and decimal digits of any script, between which
single underscores may stand; blanks around it are passed over. A numeral has at most
`maxDigits` digits.
-/

namespace RowFilter.Text

def maxDigits : Nat := 4300

/-- The values of the digits of a numeral, leading zeros included. An underscore stands between
two digits. -/
def digitValues? : List Char → Option (List Nat)
  | [] => none
  | [c] => (decimalValue? c).map ([·])
  | c :: '_' :: cs => do
    let d ← decimalValue? c
    return d :: (← digitValues? cs)
  | c :: cs => do
    let d ← decimalValue? c
    return d :: (← digitValues? cs)

def ofDigits (digits : List Nat) : Nat :=
  digits.foldl (fun n d => 10 * n + d) 0

/-- Whether a numeral may have `c` before or after it. Of the ASCII characters fewer count as
blank here than elsewhere. -/
def isPadding (c : Char) : Bool :=
  isBlank c && !(28 ≤ c.toNat && c.toNat ≤ 31)

def trimPadding (cs : List Char) : List Char :=
  ((cs.dropWhile isPadding).reverse.dropWhile isPadding).reverse

def splitSign : List Char → Bool × List Char
  | '-' :: cs => (true, cs)
  | '+' :: cs => (false, cs)
  | cs => (false, cs)

def toInteger? (s : String) : Option Int := do
  let (negative, cs) := splitSign (trimPadding s.toList)
  let digits ← digitValues? cs
  if digits.length ≤ maxDigits then
    let n : Int := ofDigits digits
    return if negative then -n else n
  else none

example : toInteger? " -1_8 " = some (-18) := by decide

example : toInteger? "٣0" = some 30 := by decide

example : toInteger? "1__8" = none := by decide

example : toInteger? "- 1" = none := by decide

end RowFilter.Text
