import RowFilter.Text.Ranges

/-!
Digits and blanks. A decimal digit is a character of general category Nd: such characters come in
runs of ten that start at a zero, so the list of zeros determines every value. A wider class, the
digit characters, adds those that stand for a digit without being usable in a numeral, such as
superscripts and circled digits. Blanks are the characters of the white-space classes.
-/

namespace RowFilter.Text

def zeroDigits : List Nat := [
  48, 1632, 1776, 1984, 2406, 2534, 2662, 2790, 2918, 3046, 3174, 3302, 3430, 3558, 3664, 3792,
  3872, 4160, 4240, 6112, 6160, 6470, 6608, 6784, 6800, 6992, 7088, 7232, 7248, 42528, 43216,
  43264, 43472, 43504, 43600, 44016, 65296, 66720, 68912, 69734, 69872, 69942, 70096, 70384,
  70736, 70864, 71248, 71360, 71472, 71904, 72016, 72784, 73040, 73120, 92768, 92864, 93008,
  120782, 120792, 120802, 120812, 120822, 123200, 123632, 125264, 130032]

def decimalValue? (c : Char) : Option Nat :=
  (zeroDigits.find? fun start => start ≤ c.toNat && c.toNat < start + 10).map (c.toNat - ·)

def otherDigits : Ranges := [
  (178, 179), (185, 185), (4969, 4977), (6618, 6618), (8304, 8304), (8308, 8313), (8320, 8329),
  (9312, 9320), (9332, 9340), (9352, 9360), (9450, 9450), (9461, 9469), (9471, 9471),
  (10102, 10110), (10112, 10120), (10122, 10130), (68160, 68163), (69216, 69224), (69714, 69722),
  (127232, 127242)]

/-- Whether `c` stands for a digit, in a numeral or out of it. -/
def isDigit (c : Char) : Bool :=
  (decimalValue? c).isSome || otherDigits.contains c

def blanks : Ranges := [
  (9, 13), (28, 32), (133, 133), (160, 160), (5760, 5760), (8192, 8202), (8232, 8233),
  (8239, 8239), (8287, 8287), (12288, 12288)]

def isBlank (c : Char) : Bool :=
  blanks.contains c

theorem isDigit_of_decimalValue?_eq_some {c : Char} {n : Nat} (h : decimalValue? c = some n) :
    isDigit c = true := by
  simp [isDigit, h]

example : decimalValue? '7' = some 7 := by decide

example : decimalValue? '٣' = some 3 := by decide

example : isDigit '²' = true ∧ decimalValue? '²' = none := by decide

end RowFilter.Text
