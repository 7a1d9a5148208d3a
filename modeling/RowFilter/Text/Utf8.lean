/-!
Decoding UTF-8 when some of the bytes may be wrong. The decoder is a machine over bytes: between
characters it waits for a first byte, and inside one it knows how many continuation bytes are owed
and between which bounds the next must lie. A byte that cannot continue a character ends it as one
replacement character, and is read again as a first byte.
-/

namespace RowFilter.Text.Utf8

def replacement : Char := '\ufffd'

/-- A character of which some bytes are read: how many are owed, the bounds of the next, and the
bits so far. -/
structure Pending where
  owed : Nat
  low : Nat
  high : Nat
  bits : Nat

/-- What a first byte stands for: a character, the start of one, or nothing. -/
def first (b : Nat) : List Char × Option Pending :=
  if b < 0x80 then ([Char.ofNat b], none)
  else if 0xC2 ≤ b ∧ b ≤ 0xDF then ([], some ⟨1, 0x80, 0xBF, b - 0xC0⟩)
  else if b = 0xE0 then ([], some ⟨2, 0xA0, 0xBF, 0⟩)
  else if b = 0xED then ([], some ⟨2, 0x80, 0x9F, 0xD⟩)
  else if 0xE1 ≤ b ∧ b ≤ 0xEF then ([], some ⟨2, 0x80, 0xBF, b - 0xE0⟩)
  else if b = 0xF0 then ([], some ⟨3, 0x90, 0xBF, 0⟩)
  else if 0xF1 ≤ b ∧ b ≤ 0xF3 then ([], some ⟨3, 0x80, 0xBF, b - 0xF0⟩)
  else if b = 0xF4 then ([], some ⟨3, 0x80, 0x8F, 4⟩)
  else ([replacement], none)

/-- Reads one byte: the characters that are complete, and what is pending after it. -/
def step : Option Pending → Nat → List Char × Option Pending
  | none, b => first b
  | some p, b =>
    if p.low ≤ b ∧ b ≤ p.high then
      let bits := 64 * p.bits + (b - 0x80)
      if p.owed ≤ 1 then ([Char.ofNat bits], none)
      else ([], some ⟨p.owed - 1, 0x80, 0xBF, bits⟩)
    else
      let (out, next) := first b
      (replacement :: out, next)

/-- The characters of the bytes that follow the pending ones. -/
def decodeFrom : Option Pending → List Nat → List Char
  | none, [] => []
  | some _, [] => [replacement]
  | p, b :: bs =>
    let (out, next) := step p b
    out ++ decodeFrom next bs

def decode (bytes : List Nat) : List Char :=
  decodeFrom none bytes

example : decode [0xC3, 0x89, 0xFF, 0x41] = ['É', '\ufffd', 'A'] := by decide

example : decode [0xF0, 0x9F, 0x98, 0x80, 0xE2, 0x82] = ['😀', '\ufffd'] := by decide

end RowFilter.Text.Utf8
