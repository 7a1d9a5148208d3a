import RowFilter.Fault
import RowFilter.Query.Column
import RowFilter.Text.Numeral

/-!
Reading operands. What a column holds decides how an operand is read: it is written as a text, a
text may be a numeral or a moment, and a floating number stands for the integer that it rounds to.
Null is read as null by every column.
-/

namespace RowFilter

def truthTexts : List String × List String :=
  (["t", "True", "1"], ["f", "False", "0"])

namespace Value

/-- The integer that an operand for the field of a name stands for. A floating number is rounded
up, or else toward zero. -/
def readInteger (field : String) (up : Bool) : Value → Except Fault Int
  | int n => .ok n
  | bool b => .ok (if b then 1 else 0)
  | text s =>
    match Text.toInteger? s with
    | some n => .ok n
    | none => .error (.notNumber field (text s))
  | float x =>
    match if up then x.ceiling? else x.truncate?, x with
    | some n, _ => .ok n
    | none, .nan => .error (if up then .notRoundable else .notNumber field (float x))
    | none, _ => .error .notFinite
  | v => .error (v.told (.notNumber field v))

def readBoolean (v : Value) : Except Fault Int :=
  let truth? : Option Bool :=
    match v with
    | bool b => some b
    | int n => if n = 1 then some true else if n = 0 then some false else none
    | float x =>
      if x.isZero then some false else if x = .finite false 1 0 then some true else none
    | text s =>
      if s ∈ truthTexts.1 then some true else if s ∈ truthTexts.2 then some false else none
    | _ => none
  match truth? with
  | some b => .ok (if b then 1 else 0)
  | none => .error (.notBoolean v)

def readMoment {α : Type} (read : String → Except Moment.ReadError α) : Value → Except Fault α
  | text s => (read s).mapError (Fault.notMoment s)
  | _ => .error .momentNotText

/-- The items of a value that is a sequence of some kind: a text has its characters, a mapping its
keys. -/
def items : Value → Except Fault (List Value)
  | text s => .ok (s.toList.map fun c => text (.singleton c))
  | list vs => .ok vs
  | mapping entries => .ok (entries.map fun (key, _) => text key)
  | v => .error (.notIterable v.shape)

end Value

/-- Whether floating operands of the column may be rounded up, and not only toward zero. -/
def ColumnRef.roundsOperands (c : ColumnRef) : Bool :=
  !c.isReference && c.year?.isNone

def ColumnRef.readOperand (c : ColumnRef) (up : Bool) (v : Value) : Except Fault Cell :=
  if v.isNull then .ok .null
  else match c.scalar with
    | .text => .text <$> v.written
    | .integer | .natural => .int <$> v.readInteger c.field (up && c.roundsOperands)
    | .boolean => .int <$> v.readBoolean
    | .moment => .moment <$> v.readMoment Moment.read
    | .date => (.text ·.text) <$> v.readMoment Moment.readDate
    | .clock => (.text ·.text) <$> v.readMoment Moment.readClock

/-- Reads the operands of a list, leaving out nulls. -/
def ColumnRef.readOperands (c : ColumnRef) : List Value → Except Fault (List Cell)
  | [] => .ok []
  | v :: vs => do
    let x ← c.readOperand false v
    let xs ← c.readOperands vs
    return if x.isPresent then x :: xs else xs

end RowFilter
