import RowFilter.Mapping
import RowFilter.Text.Quoted

/-!
Templates. A template is a text with marks, which a percent sign begins; two of them stand for one.
A mark names a value in parentheses and ends in a letter that says how the value is written. One
without a name stands for all values at once, and nothing may follow it that does so again. Between
the name and the letter a mark may tell the least width of what is written, and how much of it is.
Only forms for texts can be written, and `fill` tells the first mark that cannot.
-/

namespace RowFilter

inductive TemplateFault where
  | unfinished
  | unfinishedName
  | noValue (name : String)
  /-- A mark without a name, after all values have been written. -/
  | nothingLeft
  /-- A width or length that is to be taken from the values. -/
  | widthFromValues
  /-- A form for numbers, for a value or for all of them. -/
  | numberForm (form : Char) (ofAll : Bool)
  | characterForm
  | unknownForm (form : Char) (index : Nat)
  deriving DecidableEq, Repr

namespace Template

inductive Subject where
  | value (s : String)
  | all
  | nothing

def shownAll (values : Mapping String) : String :=
  let entries := values.map fun (name, value) => Text.quoted name ++ ": " ++ Text.quoted value
  "\x7b" ++ ", ".intercalate entries ++ "\x7d"

/-- The characters before the parenthesis that closes `depth` others and one more, and those behind
it. -/
def takeName? : (depth : Nat) → List Char → Option (List Char × List Char)
  | _, [] => none
  | depth, c :: cs =>
    if c = ')' ∧ depth = 0 then some ([], cs)
    else
      let depth := if c = '(' then depth + 1 else if c = ')' then depth - 1 else depth
      (takeName? depth cs).map fun (name, rest) => (c :: name, rest)

/-- What a mark stands for by its name, and the rest of it. -/
def readSubject (values : Mapping String) (isLeft : Bool) (cs : List Char) :
    Except TemplateFault (Subject × List Char) :=
  match cs with
  | '(' :: cs =>
    match takeName? 0 cs with
    | none => .error .unfinishedName
    | some (name, rest) =>
      match Mapping.find? (.ofList name) values with
      | some s => .ok (.value s, rest)
      | none => .error (.noValue (.ofList name))
  | cs => .ok (if isLeft then .all else .nothing, cs)

def takeNumber (cs : List Char) : Nat × List Char :=
  ((cs.takeWhile Char.isDigit).foldl (fun n c => n * 10 + (c.toNat - '0'.toNat)) 0,
    cs.dropWhile Char.isDigit)

def readNumber (subject : Subject) (cs : List Char) : Except TemplateFault (Nat × List Char) :=
  match cs, subject with
  | '*' :: _, .nothing => .error .nothingLeft
  | '*' :: _, _ => .error .widthFromValues
  | cs, _ => .ok (takeNumber cs)

def writeSubject (values : Mapping String) (form : Char) (index : Nat) :
    Subject → Except TemplateFault String
  | .nothing => .error .nothingLeft
  | subject =>
    let (shown, quoted, ofAll) := match subject with
      | .value s => (s, Text.quoted s, false)
      | _ => (shownAll values, shownAll values, true)
    if form = 's' then .ok shown
    else if form = 'r' || form = 'a' then .ok quoted
    else if "diuoxXeEfFgG".toList.contains form then .error (.numberForm form ofAll)
    else if form ≠ 'c' then .error (.unknownForm form index)
    else if shown.length = 1 then .ok shown
    else .error .characterForm

/-- Reads a mark behind its percent sign in a template of `size` characters: what is written for it,
and the rest of the template. -/
def readMark (values : Mapping String) (size : Nat) (isLeft : Bool) (cs : List Char) :
    Except TemplateFault (List Char × List Char) := do
  let (subject, cs) ← readSubject values isLeft cs
  let flags := cs.takeWhile ("-+ #0".toList.contains ·)
  let (width, cs) ← readNumber subject (cs.drop flags.length)
  let (limit?, cs) ← match cs with
    | '.' :: cs => (fun (limit, cs) => (some limit, cs)) <$> readNumber subject cs
    | cs => .ok (none, cs)
  let cs := match cs with
    | c :: rest => if c = 'h' || c = 'l' || c = 'L' then rest else c :: rest
    | [] => []
  match cs with
  | [] => throw .unfinished
  | form :: rest =>
    let text := (← writeSubject values form (size - rest.length - 1) subject).toList
    let text := text.take (limit?.getD text.length)
    let blanks := List.replicate (width - text.length) ' '
    return (if flags.contains '-' then text ++ blanks else blanks ++ text, rest)

def fillAux (values : Mapping String) (size : Nat) :
    (fuel : Nat) → (isLeft : Bool) → List Char → Except TemplateFault (List Char)
  | 0, _, _ | _, _, [] => .ok []
  | fuel + 1, isLeft, c :: cs =>
    if c ≠ '%' then (c :: ·) <$> fillAux values size fuel isLeft cs
    else match cs with
      | '%' :: cs => ('%' :: ·) <$> fillAux values size fuel isLeft cs
      | cs => do
        let (text, rest) ← readMark values size isLeft cs
        (text ++ ·) <$> fillAux values size fuel false rest

def fill (values : Mapping String) (s : String) : Except TemplateFault String :=
  .ofList <$> fillAux values s.length s.length true s.toList

example : fill [("a", "x")] "%(a)s%%" = .ok "x%" := by rfl

example : fill [("a", "x")] "%(b)s" = .error (.noValue "b") := by rfl

end Template

end RowFilter
