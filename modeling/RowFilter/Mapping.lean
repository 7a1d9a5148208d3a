/-!
Mappings from texts that keep the order in which their keys were first inserted, as lists of
entries. A key that is inserted again keeps its place and takes the new value, so the keys of a
mapping built by `insert` are distinct.
-/

namespace RowFilter

/-- Entries in order of first insertion. -/
abbrev Mapping (α : Type) := List (String × α)

namespace Mapping

variable {α : Type}

def find? (key : String) : Mapping α → Option α
  | [] => none
  | (k, v) :: rest => if k = key then some v else find? key rest

def contains (key : String) (m : Mapping α) : Bool :=
  (find? key m).isSome

def keys (m : Mapping α) : List String :=
  m.map (·.1)

/-- The mapping with the value of `key` replaced in its place, or added at the end. -/
def insert (key : String) (value : α) : Mapping α → Mapping α
  | [] => [(key, value)]
  | (k, v) :: rest => if k = key then (k, value) :: rest else (k, v) :: insert key value rest

def ofList (entries : List (String × α)) : Mapping α :=
  entries.foldl (fun m (key, value) => insert key value m) []

def update (m entries : Mapping α) : Mapping α :=
  entries.foldl (fun m (key, value) => insert key value m) m

theorem find?_insert_self (key : String) (value : α) (m : Mapping α) :
    find? key (insert key value m) = some value := by
  induction m with
  | nil => simp [insert, find?]
  | cons entry rest ih => by_cases h : entry.1 = key <;> simp [insert, find?, h, ih]

theorem find?_insert_of_ne {key other : String} (h : key ≠ other) (value : α) (m : Mapping α) :
    find? other (insert key value m) = find? other m := by
  induction m with
  | nil => simp [insert, find?, h]
  | cons entry rest ih =>
    by_cases hk : entry.1 = key
    · simp [insert, find?, hk, h]
    · by_cases ho : entry.1 = other <;> simp_all [insert, find?, eq_comm]

theorem find?_eq_none_iff {key : String} {m : Mapping α} : find? key m = none ↔ key ∉ keys m := by
  induction m with
  | nil => simp [find?, keys]
  | cons entry rest ih =>
    by_cases h : entry.1 = key
    · simp [find?, keys, h]
    · simp only [find?, keys, List.map_cons, List.mem_cons, if_neg h] at ih ⊢
      simp [ih, Ne.symm h]

/-- A new key goes to the end, and a known one keeps its place. -/
theorem keys_insert (key : String) (value : α) (m : Mapping α) :
    keys (insert key value m) = if key ∈ keys m then keys m else keys m ++ [key] := by
  induction m with
  | nil => simp [insert, keys]
  | cons entry rest ih =>
    by_cases h : entry.1 = key
    · simp [insert, keys, h]
    · simp only [keys] at ih
      by_cases hr : key ∈ rest.map (·.1) <;>
        simp [insert, keys, h, Ne.symm h, ih, hr]

theorem nodup_keys_insert (key : String) (value : α) {m : Mapping α} (h : (keys m).Nodup) :
    (keys (insert key value m)).Nodup := by
  rw [keys_insert]
  split
  · exact h
  · next hk => exact List.nodup_append.2 ⟨h, by simp, by grind⟩

end Mapping

end RowFilter
