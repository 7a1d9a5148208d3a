import RowFilter.FilterError
import RowFilter.Moment.Reader
import RowFilter.Text.Template

/-!
Faults. Besides the rejections of filters, reading an operand, resolving a name or label and reading
a form can go wrong, each in a way of its own. `Fault.message` words every one of them, and
`Fault.className` tells what it is raised as. A fault may itself tell a value; if that cannot be
written, there is no telling either.
-/

namespace RowFilter

inductive FormFault where
  | required
  | notList
  | nullCharacters
  deriving DecidableEq, Repr

inductive DefinitionFault where
  | repeatedBase (base : String)
  /-- No order of the models it builds on keeps each before those that it builds on. -/
  | noOrder (bases : List String)
  | fieldsForProxy (model : String)
  | manyBasesForProxy (model : String)
  | noBaseForProxy (model : String)
  | fieldClash (field model base : String)
  | linkClash (link model base : String)
  /-- The other side of a link would need a name and has none. -/
  | unnamedSide
  /-- The name given to a link cannot be filled in. -/
  | name (f : TemplateFault)
  /-- A field has the name by which the rows of a model are found. -/
  | fieldForRows (model : String)
  deriving DecidableEq, Repr

inductive Fault where
  | rejected (r : Rejection)
  /-- The operand for an integer column is no number. -/
  | notNumber (field : String) (operand : Value)
  | notFinite
  | notRoundable
  | tooLarge
  /-- A moment lies outside of the years that moments have, once told in universal time. -/
  | outOfCalendar
  /-- A year is asked for that no date has, or that no week has. -/
  | noSuchYear (ofWeeks : Bool) (year : Int)
  | notBoolean (operand : Value)
  | notMoment (operand : String) (reason : Moment.ReadError)
  | momentNotText
  | unknownName (name : String) (choices : List String)
  | unknownLookup (lookup typeName : String) (similar : List String)
  | manyTargets
  /-- A composite link names no columns, or not as many on both sides. -/
  | unevenColumns
  | noField (model field : String)
  | foreignTarget (reference field model : String)
  /-- Two parts are expected, of a label or of a form value. -/
  | twoParts (count : Nat)
  | notPair (shape : String)
  | unknownApp (app : String)
  | unknownModel (app model : String)
  | badIndex (index : String)
  | longIndex (count : Nat)
  /-- A number has too many digits to be written. -/
  | longNumber
  | duplicateKey (key : String)
  | notIterable (shape : String)
  | noLength (shape : String)
  | unhashable (shape : String)
  | incomparable (shape : String)
  | definition (f : DefinitionFault)
  /-- A query has room for too many parameters. -/
  | tooManyParameters
  /-- A form cannot take over an entity. -/
  | entityInForm
  | form (faults : List FormFault)

def Value.shape : Value → String
  | null => "NoneType"
  | bool _ => "bool"
  | int _ => "int"
  | float _ => "float"
  | text _ => "str"
  | list _ => "list"
  | mapping _ => "dict"
  | member _ => Value.enumerationName
  | object x => x.shape

def momentForm : String := "YYYY-MM-DD HH:MM[:ss[.uuuuuu]][TZ]"

def clockForm : String := "HH:MM[:ss[.uuuuuu]]"

def Moment.ReadError.message : Moment.ReadError → String
  | noForm => "value has an invalid format. It must be in " ++ momentForm ++ " format."
  | noSuchDate => "value has the correct format (YYYY-MM-DD) but it is an invalid date."
  | noSuchTime =>
    "value has the correct format (" ++ momentForm ++ ") but it is an invalid date/time."
  | noDateForm => "value has an invalid date format. It must be in YYYY-MM-DD format."
  | noClockForm => "value has an invalid format. It must be in " ++ clockForm ++ " format."
  | noSuchClock => "value has the correct format (" ++ clockForm ++ ") but it is an invalid time."

def FormFault.message : FormFault → String
  | required => "This field is required."
  | notList => "Enter a list of values."
  | nullCharacters => "Null characters are not allowed."

def TemplateFault.message : TemplateFault → String
  | unfinished => "incomplete format"
  | unfinishedName => "incomplete format key"
  | noValue name => Text.quoted name
  | nothingLeft => "not enough arguments for format string"
  | widthFromValues => "* wants int"
  | numberForm form ofAll =>
    let shape := if ofAll then "dict" else "str"
    if "diu".toList.contains form then
      s!"%{form} format: a real number is required, not {shape}"
    else if "oxX".toList.contains form then s!"%{form} format: an integer is required, not {shape}"
    else s!"must be real number, not {shape}"
  | characterForm => "%c requires int or char"
  | unknownForm form index =>
    let shown := if 31 ≤ form.toNat && form.toNat < 127 then form else '?'
    let code := String.ofList (Nat.toDigits 16 form.toNat)
    s!"unsupported format character '{shown}' (0x{code}) at index {index}"

def DefinitionFault.message : DefinitionFault → String
  | repeatedBase base => "duplicate base class " ++ base
  | noOrder bases =>
    "Cannot create a consistent method resolution\norder (MRO) for bases "
      ++ ", ".intercalate bases
  | fieldsForProxy model =>
    "Abstract base class containing model fields not permitted for proxy model '" ++ model ++ "'."
  | manyBasesForProxy model =>
    "Proxy model '" ++ model ++ "' has more than one non-abstract model base class."
  | noBaseForProxy model => "Proxy model '" ++ model ++ "' has no non-abstract model base class."
  | fieldClash field model base =>
    "Local field " ++ Text.quoted field ++ " in class " ++ Text.quoted model
      ++ " clashes with field of the same name from base class " ++ Text.quoted base ++ "."
  | linkClash link model base =>
    "Auto-generated field '" ++ link ++ "' in class " ++ Text.quoted model
      ++ " for parent_link to base class " ++ Text.quoted base
      ++ " clashes with declared field of the same name."
  | unnamedSide => "attribute name must be string, not 'NoneType'"
  | name f => f.message
  | fieldForRows model =>
    "Model " ++ model ++ " must specify a custom Manager, because it has a field named 'objects'."

def TemplateFault.className : TemplateFault → String
  | unfinished | unfinishedName | unknownForm _ _ => "ValueError"
  | noValue _ => "KeyError"
  | nothingLeft | widthFromValues | numberForm _ _ | characterForm => "TypeError"

def DefinitionFault.className : DefinitionFault → String
  | fieldClash _ _ _ | linkClash _ _ _ => "FieldError"
  | name f => f.className
  | fieldForRows _ => "ValueError"
  | _ => "TypeError"

/-- Whether a number has more than 32 bits, too many for a year to be looked at. -/
def isLongYear (year : Int) : Bool :=
  year < -2147483648 || 2147483648 ≤ year

def noSuchYearMessage (ofWeeks : Bool) (year : Int) : String :=
  if ofWeeks then
    if isLongYear year then "ISO calendar component out of range"
    else "Year is out of range: " ++ toString (if year = 9999 then 10000 else year)
  else if !isLongYear year then "year " ++ toString year ++ " is out of range"
  else if year < -9223372036854775808 || 9223372036854775808 ≤ year then
    "Python int too large to convert to C long"
  else if year < 0 then "signed integer is less than minimum"
  else "signed integer is greater than maximum"

def similarHint : List String → String
  | [] => "."
  | names => ", perhaps you meant " ++ " or ".intercalate names ++ "?"

/-- The text that messages show of one that is no whole number. -/
def shownIndex (index : String) : String :=
  .ofList ((Text.quoted index).toList.take 200)

namespace Fault

def message : Fault → String
  | rejected r => r.message
  | notNumber field operand =>
    "Field '" ++ field ++ "' expected a number but got " ++ operand.inspect ++ "."
  | notFinite => "cannot convert float infinity to integer"
  | notRoundable => "cannot convert float NaN to integer"
  | tooLarge => "Python int too large to convert to SQLite INTEGER"
  | outOfCalendar => "date value out of range"
  | noSuchYear ofWeeks year => noSuchYearMessage ofWeeks year
  | notBoolean operand => "“" ++ operand.display ++ "” value must be either True or False."
  | notMoment operand reason => "“" ++ operand ++ "” " ++ reason.message
  | momentNotText => "fromisoformat: argument must be str"
  | unknownName name choices =>
    "Cannot resolve keyword '" ++ name ++ "' into field. Choices are: " ++ ", ".intercalate choices
  | unknownLookup lookup typeName similar =>
    "Unsupported lookup '" ++ lookup ++ "' for " ++ typeName
      ++ " or join on the field not permitted" ++ similarHint similar
  | manyTargets =>
    "The relation has multiple target fields, but only single target field was asked for"
  | unevenColumns => "Foreign Object from and to fields must be the same non-zero length"
  | noField model field => model ++ " has no field named '" ++ field ++ "'"
  | foreignTarget reference field model =>
    "'" ++ reference ++ "' refers to field '" ++ field ++ "' which is not local to model '"
      ++ model ++ "'."
  | twoParts count =>
    if count < 2 then s!"not enough values to unpack (expected 2, got {count})"
    else "too many values to unpack (expected 2)"
  | notPair shape => s!"cannot unpack non-iterable {shape} object"
  | unknownApp app => "No installed app with label '" ++ app ++ "'."
  | unknownModel app model => "App '" ++ app ++ "' doesn't have a '" ++ model ++ "' model."
  | badIndex index => "invalid literal for int() with base 10: " ++ shownIndex index
  | longIndex count =>
    s!"Exceeds the limit (4300 digits) for integer string conversion: value has {count} digits; "
      ++ "use sys.set_int_max_str_digits() to increase the limit"
  | longNumber =>
    "Exceeds the limit (4300 digits) for integer string conversion; "
      ++ "use sys.set_int_max_str_digits() to increase the limit"
  | duplicateKey key => "A filter is already registered for key " ++ Text.quoted key
  | notIterable shape => s!"'{shape}' object is not iterable"
  | noLength shape => s!"object of type '{shape}' has no len()"
  | unhashable shape => s!"unhashable type: '{shape}'"
  | incomparable shape => s!"'>' not supported between instances of 'int' and '{shape}'"
  | definition f => f.message
  | tooManyParameters =>
    "The number of GET/POST parameters exceeded settings.DATA_UPLOAD_MAX_NUMBER_FIELDS."
  | entityInForm => "cannot pickle 'mappingproxy' object"
  | form faults => " | ".intercalate (faults.map FormFault.message)

def className : Fault → String
  | rejected r => r.detail.errorClass.name
  | notNumber _ (.text _) | notNumber _ (.float _) => "ValueError"
  | notNumber _ _ => "TypeError"
  | notFinite | tooLarge | outOfCalendar => "OverflowError"
  | noSuchYear ofWeeks year =>
    if !ofWeeks && isLongYear year then "OverflowError" else "ValueError"
  | notRoundable | twoParts _ | badIndex _ | longIndex _ | longNumber | duplicateKey _
  | unevenColumns => "ValueError"
  | notBoolean _ | notMoment _ _ | form _ => "ValidationError"
  | momentNotText | notPair _ | notIterable _ | noLength _ | unhashable _ | incomparable _
  | entityInForm => "TypeError"
  | unknownName _ _ | unknownLookup _ _ _ | manyTargets | foreignTarget _ _ _ => "FieldError"
  | definition f => f.className
  | noField _ _ => "FieldDoesNotExist"
  | tooManyParameters => "TooManyFieldsSent"
  | unknownApp _ | unknownModel _ _ => "LookupError"

end Fault

def Value.written (v : Value) : Except Fault String :=
  if v.hasText then .ok v.display else .error .longNumber

/-- A fault that tells a value, which must be written for it. -/
def Value.told (v : Value) (f : Fault) : Fault :=
  if v.hasText then f else .longNumber

namespace Value

theorem written_of_hasText {v : Value} (h : v.hasText = true) : v.written = .ok v.display :=
  if_pos h

theorem told_of_hasText {v : Value} (h : v.hasText = true) (f : Fault) : v.told f = f :=
  if_pos h

end Value

end RowFilter
