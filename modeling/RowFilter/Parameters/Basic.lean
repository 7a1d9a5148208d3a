import RowFilter.Outcome
import RowFilter.Parameters.Key
import RowFilter.Settings
import RowFilter.Text.FormData

/-!
Filters in parameters. Parameters with bracketed keys of a given head are read, in order, into a
mapping of filter keys: a value, a mapping of entries, or a list of such mappings in order of their
indices. Where both come for one name, an entry replaces a value that is no mapping, a value
replaces all entries, and what came without an index goes before what came with one. Other
parameters are passed over, those of the given head with a record.
-/

namespace RowFilter.Parameters

/-- The mappings under a name by their index, in increasing order. -/
abbrev Items := List (Nat × Mapping Value)

def Items.insert (index : Nat) (sub : String) (value : Value) : Items → Items
  | [] => [(index, [(sub, value)])]
  | (i, entries) :: rest =>
    if index = i then (i, Mapping.insert sub value entries) :: rest
    else if index < i then (index, [(sub, value)]) :: (i, entries) :: rest
    else (i, entries) :: Items.insert index sub value rest

/-- What was read so far, without an index and with one. -/
structure Collected where
  direct : Mapping Value := []
  indexed : Mapping Items := []

namespace Collected

def setValue (c : Collected) (name : String) (value : Value) : Collected :=
  { c with direct := Mapping.insert name value c.direct }

def setEntry (c : Collected) (name sub : String) (value : Value) : Collected :=
  let entries := match Mapping.find? name c.direct with
    | some (.mapping entries) => entries
    | _ => []
  c.setValue name (.mapping (Mapping.insert sub value entries))

def setItem (c : Collected) (name : String) (index : Nat) (sub : String) (value : Value) :
    Collected :=
  let items := (Mapping.find? name c.indexed).getD []
  { c with indexed := Mapping.insert name (Items.insert index sub value items) c.indexed }

def listOf (c : Collected) (name : String) (items : Items) : Value :=
  .list ((Mapping.find? name c.direct).toList ++ items.map fun (_, entries) => .mapping entries)

def result (c : Collected) : Mapping Value :=
  Mapping.update c.direct (c.indexed.map fun (name, items) => (name, c.listOf name items))

end Collected

/-- The value of a parameter: of several the last, and null for an empty text. -/
def lastOf (v : Value) : Value :=
  let last := match v with
    | .list items => items.getLast?.getD .null
    | v => v
  match last with
  | .text "" => .null
  | v => v

def readOne (param : Value) (c : Collected) (rawKey : String) (raw : Value) : Outcome Collected :=
  match BracketKey.read? rawKey with
  | some ⟨head, name :: rest⟩ =>
    if param.asText? ≠ some head ∨ name = "" then return c
    else match BracketKey.formOf? rest with
      | some .value => return c.setValue name (lastOf raw)
      | some (.entry sub) => return c.setEntry name sub (lastOf raw)
      | some (.indexed digits sub) => do
        let index ← .ofExcept (BracketKey.readIndex digits)
        return c.setItem name index sub (lastOf raw)
      | none => do
        .debug ("Ignoring unsupported filter parameter " ++ Text.quoted rawKey)
        return c
  | _ => return c

def collect (param : Value) : Collected → Mapping Value → Outcome Collected
  | c, [] => return c
  | c, (key, value) :: rest => do collect param (← readOne param c key value) rest

/-- The incoming filters of parameters. The head is `param`, or that of the settings if it is not
given or empty. -/
def filters (settings : Settings) (parameters : Mapping Value) (param : Option String) :
    Outcome (Mapping Value) := do
  let head : Value := match param with
    | none | some "" => settings.queryParam
    | some head => .text head
  return (← collect head {} parameters).result

def ofQuery (query : String) : Mapping Value :=
  (Text.FormData.lastValues query).map fun (name, value) => (name, .text value)

/-- Reads a query by `read`, unless it has room for too many parameters. -/
def readQuery {α : Type} (read : String → α) (query : String) : Except Fault α :=
  if Text.FormData.isOverfull query then .error .tooManyParameters else .ok (read query)

end RowFilter.Parameters
