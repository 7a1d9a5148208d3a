import Mathlib.Data.List.Perm.Basic
import RowFilter.Mapping
import RowFilter.Value.Basic

/-!
Mappings as what they hold. A mapping with distinct keys is known, up to the order of its keys, by
what is found under each of them, and inserting entries one by one keeps the keys distinct.
`Value.Same` says that two values differ in the order of keys at most.
-/

namespace RowFilter

namespace Mapping

variable {α : Type} {key : String} {m n : Mapping α}

@[simp] theorem find?_nil (key : String) : find? key ([] : Mapping α) = none := rfl

@[simp] theorem keys_nil : keys ([] : Mapping α) = [] := rfl

@[simp] theorem keys_cons (k : String) (v : α) (m : Mapping α) :
    keys ((k, v) :: m) = k :: keys m := rfl

@[simp] theorem keys_append (m n : Mapping α) : keys (m ++ n) = keys m ++ keys n :=
  List.map_append

theorem find?_cons (k : String) (v : α) (m : Mapping α) :
    find? key ((k, v) :: m) = if k = key then some v else find? key m := rfl

theorem find?_insert (other : String) (value : α) (m : Mapping α) :
    find? key (insert other value m) = if other = key then some value else find? key m := by
  by_cases h : other = key
  · rw [if_pos h, h, find?_insert_self]
  · rw [if_neg h, find?_insert_of_ne h]

theorem mem_of_find?_eq_some {v : α} (h : find? key m = some v) : (key, v) ∈ m := by
  induction m with
  | nil => simp at h
  | cons entry rest ih =>
      obtain ⟨k, w⟩ := entry
      rw [find?_cons] at h
      split at h
      · next hk =>
        obtain rfl := Option.some.inj h
        exact hk ▸ List.mem_cons_self
      · exact List.mem_cons_of_mem _ (ih h)

theorem mem_keys_iff : key ∈ keys m ↔ ∃ v, find? key m = some v := by
  rw [← Option.ne_none_iff_exists', ne_eq, find?_eq_none_iff, not_not]

theorem find?_eq_some_iff (hm : (keys m).Nodup) {v : α} :
    find? key m = some v ↔ (key, v) ∈ m := by
  refine ⟨mem_of_find?_eq_some, fun h => ?_⟩
  induction m with
  | nil => simp at h
  | cons entry rest ih =>
      obtain ⟨k, w⟩ := entry
      obtain ⟨hk, hrest⟩ := List.nodup_cons.1 hm
      rw [find?_cons]
      rcases List.mem_cons.1 h with heq | hmem
      · obtain ⟨rfl, rfl⟩ := Prod.mk.inj heq
        rw [if_pos rfl]
      · have hne : k ≠ key := by
          rintro rfl
          exact hk (List.mem_map.2 ⟨(k, v), hmem, rfl⟩)
        rw [if_neg hne, ih hrest hmem]

theorem find?_perm (h : m.Perm n) (hm : (keys m).Nodup) : find? key m = find? key n := by
  have hn : (keys n).Nodup := (h.map Prod.fst).nodup_iff.1 hm
  apply Option.ext
  intro v
  rw [find?_eq_some_iff hm, find?_eq_some_iff hn, h.mem_iff]

theorem nodup_keys_update (entries : Mapping α) (hm : (keys m).Nodup) :
    (keys (update m entries)).Nodup := by
  induction entries generalizing m with
  | nil => exact hm
  | cons entry rest ih => exact ih (nodup_keys_insert entry.1 entry.2 hm)

theorem find?_update {entries : Mapping α} (h : (keys entries).Nodup) :
    find? key (update m entries) = (find? key entries).or (find? key m) := by
  induction entries generalizing m with
  | nil => rfl
  | cons entry rest ih =>
      obtain ⟨k, v⟩ := entry
      obtain ⟨hk, hrest⟩ := List.nodup_cons.1 h
      show find? key (update (insert k v m) rest) = _
      rw [ih hrest, find?_insert, find?_cons]
      by_cases heq : k = key
      · subst heq
        rw [find?_eq_none_iff.2 hk]
        simp
      · simp [heq]

theorem insert_of_notMem (value : α) (h : key ∉ keys m) :
    insert key value m = m ++ [(key, value)] := by
  induction m with
  | nil => rfl
  | cons entry rest ih =>
      obtain ⟨hne, hrest⟩ := List.ne_and_not_mem_of_not_mem_cons h
      rw [insert, if_neg (Ne.symm hne), ih hrest, List.cons_append]

theorem insert_insert (value other : α) (m : Mapping α) :
    insert key other (insert key value m) = insert key other m := by
  induction m with
  | nil => simp [insert]
  | cons entry rest ih => by_cases h : entry.1 = key <;> simp [insert, h, ih]

theorem update_of_nodup {entries : Mapping α} (h : (keys (m ++ entries)).Nodup) :
    update m entries = m ++ entries := by
  induction entries generalizing m with
  | nil => simp [update]
  | cons entry rest ih =>
      obtain ⟨k, v⟩ := entry
      have hk : k ∉ keys m := fun hmem => by
        rw [keys_append, List.nodup_append] at h
        exact h.2.2 k hmem k (by simp) rfl
      show update (insert k v m) rest = _
      rw [insert_of_notMem v hk, ih (by simpa using h)]
      simp

end Mapping

namespace Value

/-- Whether two values are equal but for the order of keys in mappings. -/
inductive Same : Value → Value → Prop
  | refl (v : Value) : Same v v
  | list {items others : List Value} : List.Forall₂ Same items others →
      Same (.list items) (.list others)
  | mapping {m n : Mapping Value} : (Mapping.keys m).Perm (Mapping.keys n) →
      (∀ key v w, Mapping.find? key m = some v → Mapping.find? key n = some w → Same v w) →
      Same (.mapping m) (.mapping n)

theorem same_of_perm {m n : Mapping Value} (h : m.Perm n) (hm : (Mapping.keys m).Nodup) :
    Same (.mapping m) (.mapping n) := by
  refine .mapping (h.map Prod.fst) fun key v w hv hw => ?_
  rw [Mapping.find?_perm h hm, hw] at hv
  rw [Option.some.inj hv]
  exact .refl v

end Value

end RowFilter
