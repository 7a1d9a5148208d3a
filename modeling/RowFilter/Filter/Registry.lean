import RowFilter.Filter.Basic

/-!
Registries of filters. A registry has the filters of one resource, each under its key, in order of
registration. It applies incoming values by key, and each of several values for one key; every one
of them narrows the query further, and the first failure ends it.
-/

namespace RowFilter

structure FilterRegistry where
  filters : List Filter

namespace FilterRegistry

def empty : FilterRegistry := ⟨[]⟩

def get? (registry : FilterRegistry) (key : String) : Option Filter :=
  registry.filters.find? (·.key == key)

def keys (registry : FilterRegistry) : List String :=
  registry.filters.map Filter.key

def contains (registry : FilterRegistry) (key : String) : Bool :=
  (registry.get? key).isSome

def size (registry : FilterRegistry) : Nat :=
  registry.filters.length

def register (registry : FilterRegistry) (f : Filter) : Except Fault FilterRegistry :=
  if registry.contains f.key then .error (.duplicateKey f.key)
  else .ok ⟨registry.filters ++ [f]⟩

def ofList (filters : List Filter) : Except Fault FilterRegistry :=
  filters.foldlM register empty

/-- The values that came for one key: a list holds several. -/
def valuesOf : Value → List Value
  | .list vs => vs
  | v => [v]

def applyAll (schema : Schema) (settings : Settings) (f : Filter) :
    List Value → Query → Outcome Query
  | [], q => pure q
  | v :: vs, q => do applyAll schema settings f vs (← f.apply schema settings q v)

def applyEntries (schema : Schema) (settings : Settings) (registry : FilterRegistry) :
    Mapping Value → Query → Outcome Query
  | [], q => pure q
  | (key, v) :: rest, q =>
    match registry.get? key with
    | none => .reject (.unknownKey key)
    | some f => do
      applyEntries schema settings registry rest (← applyAll schema settings f (valuesOf v) q)

/-- Narrows a query by incoming values, a mapping by key; nothing is asked by a value that counts
as false. -/
def apply (schema : Schema) (settings : Settings) (registry : FilterRegistry) (q : Query)
    (incoming : Value) : Outcome Query :=
  if !incoming.truthy then pure q
  else match incoming with
    | .mapping entries => do
      let narrowed ← applyEntries schema settings registry entries q
      .debug ("Applied filters: " ++ ", ".intercalate (Mapping.keys entries))
      return narrowed
    | _ => .reject .filtersNotMapping

/-- Whether a filter that something comes for is singular. -/
def isSingular (registry : FilterRegistry) (incoming : Value) : Bool :=
  match incoming with
  | .mapping entries =>
    entries.any fun (key, _) => ((registry.get? key).map (·.isSingular)).getD false
  | _ => false

/-- Registration fails exactly for a key that is taken, and else puts the filter at the end. -/
theorem register_eq_ok_iff {registry next : FilterRegistry} {f : Filter} :
    registry.register f = .ok next ↔
      registry.contains f.key = false ∧ next = ⟨registry.filters ++ [f]⟩ := by
  by_cases h : registry.contains f.key <;> simp [register, h, eq_comm]

theorem contains_iff {registry : FilterRegistry} {key : String} :
    registry.contains key = true ↔ key ∈ registry.keys := by
  simp [contains, get?, keys, List.find?_isSome]

theorem keys_of_register {registry next : FilterRegistry} {f : Filter}
    (h : registry.register f = .ok next) : next.keys = registry.keys ++ [f.key] := by
  simp [(register_eq_ok_iff.1 h).2, keys]

theorem key_of_get?_eq_some {registry : FilterRegistry} {key : String} {f : Filter}
    (h : registry.get? key = some f) : f.key = key := by
  simpa using List.find?_some h

end FilterRegistry

end RowFilter
