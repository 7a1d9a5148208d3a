/-!
Floating-point numbers, each held as the shortest decimal that reads back as it. `Decimal.text`
writes that decimal; `Decimal.truncate?` and `Decimal.ceiling?` first recover the binary number,
which beyond sixteen digits differs from its decimal, in exact arithmetic: the decimal is rounded
to 53 significant bits, a tie going to the even neighbour.
-/

namespace RowFilter

/-- A floating-point number. A finite one is `digits * 10 ^ exponent`, with its sign. -/
inductive Decimal where
  | finite (negative : Bool) (digits : Nat) (exponent : Int)
  | infinite (negative : Bool)
  | nan
  deriving DecidableEq, Repr

namespace Decimal

def fraction (digits : Nat) (exponent : Int) : Nat × Nat :=
  (digits * Nat.pow 10 exponent.toNat, Nat.pow 10 (-exponent).toNat)

/-- The quotient rounded to a whole number, a tie going to the even one. -/
def roundDiv (num den : Nat) : Nat :=
  let q := num / den
  let twice := 2 * (num % den)
  if den < twice ∨ (twice = den ∧ q % 2 = 1) then q + 1 else q

/-- The place of the last of 53 significant bits of a positive fraction, which is never below that
of the least positive number. -/
def lastPlace (num den : Nat) : Int :=
  let guess : Int := num.log2 - den.log2
  let small := num * Nat.pow 2 (-guess).toNat < den * Nat.pow 2 guess.toNat
  max (-1074) ((if small then guess - 1 else guess) - 52)

/-- The binary number nearest to a finite decimal, as a fraction without its sign. -/
def nearest (digits : Nat) (exponent : Int) : Nat × Nat :=
  let (num, den) := fraction digits exponent
  if num = 0 then (0, 1)
  else
    let place := lastPlace num den
    let bits := roundDiv (num * Nat.pow 2 (-place).toNat) (den * Nat.pow 2 place.toNat)
    (bits * Nat.pow 2 place.toNat, Nat.pow 2 (-place).toNat)

def truncate? : Decimal → Option Int
  | finite negative digits exponent =>
    let (num, den) := nearest digits exponent
    some (if negative then -(num / den : Nat) else (num / den : Nat))
  | _ => none

def ceiling? : Decimal → Option Int
  | finite negative digits exponent =>
    let (num, den) := nearest digits exponent
    some (if negative then -(num / den : Nat) else ((num + den - 1) / den : Nat))
  | _ => none

def lessThanNat (x : Decimal) (n : Nat) : Bool :=
  match x with
  | finite negative digits exponent =>
    let (num, den) := nearest digits exponent
    if negative then 0 < n + num else num < n * den
  | infinite negative => negative
  | nan => false

def isZero : Decimal → Bool
  | finite _ digits _ => digits == 0
  | _ => false

def digitsOf (n : Nat) : List Char :=
  (Nat.toDigits 10 n)

def powerText (e : Int) : List Char :=
  let digits := digitsOf e.natAbs
  'e' :: (if e < 0 then '-' else '+') :: (if digits.length < 2 then '0' :: digits else digits)

/-- A finite number without its sign. Numbers from `10 ^ -4` to below `10 ^ 16` are written without
a power of ten, and such a one always has a fractional part. -/
def magnitudeText (digits : Nat) (exponent : Int) : List Char :=
  let ds := digitsOf digits
  let lead := ds.length + exponent - 1
  if digits = 0 then ['0', '.', '0']
  else if -4 ≤ lead ∧ lead < 16 then
    if 0 ≤ exponent then ds ++ List.replicate exponent.toNat '0' ++ ['.', '0']
    else if 0 ≤ lead then ds.take (lead + 1).toNat ++ '.' :: ds.drop (lead + 1).toNat
    else '0' :: '.' :: List.replicate (-lead - 1).toNat '0' ++ ds
  else match ds with
    | [d] => d :: powerText lead
    | d :: rest => d :: '.' :: rest ++ powerText lead
    | [] => []

def text : Decimal → String
  | finite negative digits exponent =>
    .ofList ((if negative then ['-'] else []) ++ magnitudeText digits exponent)
  | infinite negative => if negative then "-inf" else "inf"
  | nan => "nan"

def strip (negative : Bool) (digits : Nat) (exponent : Int) : Decimal :=
  if digits = 0 then finite negative 0 0
  else if digits % 10 = 0 then strip negative (digits / 10) (exponent + 1)
  else finite negative digits exponent
termination_by digits
decreasing_by omega

def natOf? (cs : List Char) : Option Nat :=
  if cs ≠ [] ∧ cs.all Char.isDigit then
    some (cs.foldl (fun n c => 10 * n + (c.toNat - '0'.toNat)) 0)
  else none

def intOf? : List Char → Option Int
  | '-' :: cs => (natOf? cs).map (-·)
  | '+' :: cs => (natOf? cs).map (·)
  | cs => (natOf? cs).map (·)

def ofMagnitude? (negative : Bool) (cs : List Char) : Option Decimal := do
  let isMark (c : Char) : Bool := c == 'e' || c == 'E'
  let mantissa := cs.takeWhile (!isMark ·)
  let power ← match cs.dropWhile (!isMark ·) with
    | [] => some 0
    | _ :: rest => intOf? rest
  let whole := mantissa.takeWhile (· != '.')
  let places := (mantissa.dropWhile (· != '.')).drop 1
  let digits ← natOf? (whole ++ places)
  return strip negative digits (power - places.length)

def ofText? (s : String) : Option Decimal :=
  match s with
  | "inf" => some (infinite false)
  | "-inf" => some (infinite true)
  | "nan" => some nan
  | s => match s.toList with
    | '-' :: cs => ofMagnitude? true cs
    | cs => ofMagnitude? false cs

end Decimal

end RowFilter
