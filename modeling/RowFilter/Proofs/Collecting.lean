import Mathlib.Tactic.Push
import Mathlib.Tactic.SplitIfs
import RowFilter.Parameters.Basic
import RowFilter.Proofs.BracketKeys
import RowFilter.Proofs.Mappings

/-!
Reading parameters as assigning. Each parameter assigns a value at a place under a name, or nothing
at all, and reading parameters in order carries out their assignments in order. What stands under a
name then depends on the assignments of that name only: those without an index make up what was set
directly, those with one make up the items, which come in increasing order of their indices.
-/

namespace RowFilter.Parameters

namespace Items

variable {index i : Nat} {sub : String} {value : Value} {items others : Items}

def find? (index : Nat) : Items → Option (Mapping Value)
  | [] => none
  | (i, entries) :: rest => if i = index then some entries else find? index rest

def Sorted (items : Items) : Prop :=
  items.Pairwise (·.1 < ·.1)

def insertAll (items : Items) (entries : List (Nat × String × Value)) : Items :=
  entries.foldl (fun items (index, sub, value) => insert index sub value items) items

def entriesAt (index : Nat) (entries : List (Nat × String × Value)) : Mapping Value :=
  (entries.filter (·.1 = index)).map (·.2)

theorem find?_cons (i : Nat) (entries : Mapping Value) (rest : Items) :
    find? index ((i, entries) :: rest) = if i = index then some entries else find? index rest := rfl

theorem find?_eq_none (h : ∀ item ∈ items, item.1 ≠ index) : find? index items = none := by
  induction items with
  | nil => rfl
  | cons item rest ih =>
      obtain ⟨hitem, hrest⟩ := List.forall_mem_cons.1 h
      rw [find?, if_neg hitem, ih hrest]

theorem exists_of_find?_eq_some {entries : Mapping Value} (h : find? index items = some entries) :
    (index, entries) ∈ items := by
  induction items with
  | nil => simp [find?] at h
  | cons item rest ih =>
      obtain ⟨i, first⟩ := item
      rw [find?_cons] at h
      split at h
      · next hi =>
        obtain rfl := Option.some.inj h
        exact hi ▸ List.mem_cons_self
      · exact List.mem_cons_of_mem _ (ih h)

/-- Where indices are in increasing order, what stands at an index is what is found there. -/
theorem find?_eq_some_iff (h : Sorted items) {entries : Mapping Value} :
    find? index items = some entries ↔ (index, entries) ∈ items := by
  refine ⟨exists_of_find?_eq_some, fun hmem => ?_⟩
  induction items with
  | nil => cases hmem
  | cons item rest ih =>
      obtain ⟨hfirst, hrest⟩ := List.pairwise_cons.1 h
      rcases List.mem_cons.1 hmem with rfl | hmem
      · exact if_pos rfl
      · have hless : item.1 < index := hfirst _ hmem
        rw [find?, if_neg (Nat.ne_of_lt hless), ih hrest hmem]

theorem find?_insert (index i : Nat) (sub : String) (value : Value) {items : Items}
    (h : Sorted items) :
    find? i (insert index sub value items) =
      if i = index then some (Mapping.insert sub value ((find? index items).getD []))
      else find? i items := by
  induction items with
  | nil =>
      by_cases hi : i = index
      · simp [insert, find?, hi, Mapping.insert]
      · simp [insert, find?, hi, Ne.symm hi]
  | cons item rest ih =>
      obtain ⟨j, entries⟩ := item
      obtain ⟨hfirst, hrest⟩ := List.pairwise_cons.1 h
      by_cases heq : index = j
      · subst heq
        by_cases hi : i = index
        · simp [insert, find?_cons, hi]
        · simp [insert, find?_cons, hi, Ne.symm hi]
      · by_cases hlt : index < j
        · -- the index is new, since all that follow are greater
          have hnew : find? index rest = none :=
            find?_eq_none fun item hitem => by
              have hgt : j < item.1 := hfirst item hitem
              omega
          by_cases hi : i = index
          · simp [insert, find?_cons, heq, Ne.symm heq, hlt, hi, hnew, Mapping.insert]
          · simp [insert, find?_cons, heq, hlt, hi, Ne.symm hi]
        · have hkept : insert index sub value ((j, entries) :: rest) =
              (j, entries) :: insert index sub value rest := by
            simp [insert, heq, hlt]
          rw [hkept, find?_cons, find?_cons, find?_cons, ih hrest, if_neg (Ne.symm heq)]
          by_cases hi : i = index
          · rw [hi, if_neg (Ne.symm heq), if_pos rfl, if_pos rfl]
          · rw [if_neg hi, if_neg hi]

theorem fst_mem_insert {item : Nat × Mapping Value} (h : item ∈ insert index sub value items) :
    item.1 = index ∨ ∃ other ∈ items, other.1 = item.1 := by
  induction items with
  | nil => simp_all [insert]
  | cons first rest ih =>
      rw [insert] at h
      split_ifs at h with heq hlt
      · rcases List.mem_cons.1 h with rfl | h
        · exact .inl heq.symm
        · exact .inr ⟨item, List.mem_cons_of_mem _ h, rfl⟩
      · rcases List.mem_cons.1 h with rfl | h
        · exact .inl rfl
        · exact .inr ⟨item, h, rfl⟩
      · rcases List.mem_cons.1 h with rfl | h
        · exact .inr ⟨_, List.mem_cons_self, rfl⟩
        · rcases ih h with h | ⟨other, hother, h⟩
          · exact .inl h
          · exact .inr ⟨other, List.mem_cons_of_mem _ hother, h⟩

theorem sorted_insert (index : Nat) (sub : String) (value : Value) (h : Sorted items) :
    Sorted (insert index sub value items) := by
  induction items with
  | nil => simp [insert, Sorted]
  | cons first rest ih =>
      obtain ⟨hfirst, hrest⟩ := List.pairwise_cons.1 h
      rw [insert]
      split_ifs with heq hlt
      · exact List.pairwise_cons.2 ⟨hfirst, hrest⟩
      · refine List.pairwise_cons.2 ⟨fun item hitem => ?_, h⟩
        rcases List.mem_cons.1 hitem with rfl | hitem
        · exact hlt
        · exact Nat.lt_trans hlt (hfirst item hitem)
      · refine List.pairwise_cons.2 ⟨fun item hitem => ?_, ih hrest⟩
        rcases fst_mem_insert hitem with h | ⟨other, hother, h⟩
        · show first.1 < item.1
          omega
        · exact h ▸ hfirst other hother

@[simp] theorem entriesAt_append (entries more : List (Nat × String × Value)) :
    entriesAt index (entries ++ more) = entriesAt index entries ++ entriesAt index more := by
  simp [entriesAt]

theorem entriesAt_map (i : Nat) (entries : Mapping Value) :
    entriesAt index (entries.map fun entry => (i, entry)) = if i = index then entries else [] := by
  have hfst : ∀ entry ∈ entries.map fun entry => (i, entry), entry.1 = i := by
    intro entry hentry
    obtain ⟨_, _, rfl⟩ := List.mem_map.1 hentry
    rfl
  split_ifs with h
  · subst h
    rw [entriesAt, List.filter_eq_self.2 fun entry hentry => by simpa using hfst entry hentry]
    simp [Function.comp_def]
  · have hnil : (entries.map fun entry => (i, entry)).filter (·.1 = index) = [] :=
      List.filter_eq_nil_iff.2 fun entry hentry => by simpa [hfst entry hentry] using h
    rw [entriesAt, hnil, List.map_nil]

theorem sorted_insertAll (entries : List (Nat × String × Value)) (h : Sorted items) :
    Sorted (insertAll items entries) := by
  induction entries generalizing items with
  | nil => exact h
  | cons entry rest ih => exact ih (sorted_insert _ _ _ h)

theorem find?_insertAll (entries : List (Nat × String × Value)) (h : Sorted items) :
    find? i (insertAll items entries) =
      if entriesAt i entries = [] then find? i items
      else some (Mapping.update ((find? i items).getD []) (entriesAt i entries)) := by
  induction entries generalizing items with
  | nil => simp [insertAll, entriesAt]
  | cons entry rest ih =>
      obtain ⟨index, sub, value⟩ := entry
      show find? i (insertAll (insert index sub value items) rest) = _
      rw [ih (sorted_insert _ _ _ h), find?_insert _ _ _ _ h]
      by_cases hi : i = index
      · subst hi
        have hcons : entriesAt i ((i, sub, value) :: rest) = (sub, value) :: entriesAt i rest := by
          simp [entriesAt]
        rw [hcons, if_pos rfl, if_neg (List.cons_ne_nil _ _)]
        split_ifs with hnil
        · rw [hnil]
          rfl
        · rfl
      · have hskip : entriesAt i ((index, sub, value) :: rest) = entriesAt i rest := by
          simp [entriesAt, Ne.symm hi]
        rw [hskip, if_neg hi]

/-- Items in increasing order are known by what is found at each index: if related mappings are
found in two of them, then one after the other is related. -/
theorem forall₂_of_find? {r : Mapping Value → Mapping Value → Prop} (hitems : Sorted items)
    (hothers : Sorted others)
    (h : ∀ index, (find? index items).isSome = (find? index others).isSome ∧
      ∀ entries ∈ find? index items, ∀ other ∈ find? index others, r entries other) :
    List.Forall₂ (fun a b => r a.2 b.2) items others := by
  induction items generalizing others with
  | nil =>
      cases others with
      | nil => exact .nil
      | cons other rest => simpa [find?] using (h other.1).1
  | cons item items ih =>
      cases others with
      | nil => simpa [find?] using (h item.1).1
      | cons other others =>
          obtain ⟨i, entries⟩ := item
          obtain ⟨j, otherEntries⟩ := other
          obtain ⟨hfirst, hrest⟩ := List.pairwise_cons.1 hitems
          obtain ⟨hfirst', hrest'⟩ := List.pairwise_cons.1 hothers
          have hleast {k : Nat} {items : Items} (hall : ∀ item ∈ items, k < item.1) :
              ∀ index ≤ k, find? index items = none := fun index hle =>
            find?_eq_none fun item hitem => by
              have := hall item hitem
              omega
          -- the least index of either is found in the other
          have hij : i = j := by
            rcases Nat.lt_trichotomy i j with hlt | heq | hlt
            · have := (h i).1
              simp [find?, hleast hfirst' i (Nat.le_of_lt hlt), Nat.ne_of_gt hlt] at this
            · exact heq
            · have := (h j).1
              simp [find?, hleast hfirst j (Nat.le_of_lt hlt), Nat.ne_of_gt hlt] at this
          subst hij
          refine .cons ((h i).2 _ (by simp [find?]) _ (by simp [find?])) (ih hrest hrest' ?_)
          intro index
          by_cases hindex : i = index
          · subst hindex
            simp [hleast hfirst i (Nat.le_refl i), hleast hfirst' i (Nat.le_refl i)]
          · simpa [find?, hindex] using h index

end Items

/-- Where under its name a parameter assigns its value. -/
inductive Place where
  | value
  | entry (sub : String)
  | item (index : Nat) (sub : String)

inductive Place.IsReadFrom : Place → List String → Prop where
  | value : IsReadFrom .value []
  | entry {sub : String} (hsub : sub ≠ "") : IsReadFrom (.entry sub) [sub]
  | item {digits sub : String} {index : Nat} (hdigits : BracketKey.isIndex digits = true)
      (hindex : BracketKey.readIndex digits = .ok index) (hsub : sub ≠ "") :
      IsReadFrom (.item index sub) [digits, sub]

structure Assignment where
  name : String
  place : Place
  value : Value

namespace Assignment

def read? (param : Value) (rawKey : String) (raw : Value) : Except Fault (Option Assignment) :=
  match BracketKey.read? rawKey with
  | some ⟨head, name :: rest⟩ =>
    if param.asText? ≠ some head ∨ name = "" then .ok none
    else match BracketKey.formOf? rest with
      | some .value => .ok (some ⟨name, .value, lastOf raw⟩)
      | some (.entry sub) => .ok (some ⟨name, .entry sub, lastOf raw⟩)
      | some (.indexed digits sub) =>
        (BracketKey.readIndex digits).map fun index => some ⟨name, .item index sub, lastOf raw⟩
      | none => .ok none
  | _ => .ok none

def readAll (param : Value) : Mapping Value → Except Fault (List Assignment)
  | [] => .ok []
  | (key, raw) :: rest =>
    (read? param key raw).bind fun first =>
      (readAll param rest).map fun more => first.toList ++ more

/-- What an assignment sets directly: the whole value or an entry of it. -/
def direct? (a : Assignment) : Option (Option String × Value) :=
  match a.place with
  | .value => some (none, a.value)
  | .entry sub => some (some sub, a.value)
  | .item _ _ => none

def item? (a : Assignment) : Option (Nat × String × Value) :=
  match a.place with
  | .item index sub => some (index, sub, a.value)
  | _ => none

def named (name : String) (as : List Assignment) : List Assignment :=
  as.filter (·.name = name)

/-- What a parameter that assigns is made of. -/
theorem read?_eq_ok_some_iff {param raw : Value} {rawKey : String} {a : Assignment} :
    read? param rawKey raw = .ok (some a) ↔ ∃ head rest,
      BracketKey.read? rawKey = some ⟨head, a.name :: rest⟩ ∧ param.asText? = some head ∧
        a.name ≠ "" ∧ a.place.IsReadFrom rest ∧ a.value = lastOf raw := by
  constructor
  · intro h
    unfold read? at h
    split at h
    · next head name rest hkey =>
      split_ifs at h with hskip
      · cases h
      push Not at hskip
      obtain ⟨hhead, hname⟩ := hskip
      split at h
      · next hform =>
        cases h
        obtain rfl := BracketKey.formOf?_eq_some_iff.1 hform
        exact ⟨head, _, hkey, hhead, hname, .value, rfl⟩
      · next sub hform =>
        cases h
        obtain ⟨rfl, hsub⟩ := BracketKey.formOf?_eq_some_iff.1 hform
        exact ⟨head, _, hkey, hhead, hname, .entry hsub, rfl⟩
      · next digits sub hform =>
        obtain ⟨rfl, hdigits, hsub⟩ := BracketKey.formOf?_eq_some_iff.1 hform
        cases hindex : BracketKey.readIndex digits with
        | error fault =>
            rw [hindex] at h
            cases h
        | ok index =>
            rw [hindex] at h
            cases h
            exact ⟨head, _, hkey, hhead, hname, .item hdigits hindex hsub, rfl⟩
      · cases h
    · cases h
  · obtain ⟨name, place, value⟩ := a
    rintro ⟨head, rest, hkey, hhead, hname, hplace, rfl⟩
    rw [read?, hkey]
    cases hplace with
    | value => simp [hhead, hname, BracketKey.formOf?]
    | entry hsub => simp [hhead, hname, BracketKey.formOf?, hsub]
    | item hdigits hindex hsub =>
        simp [hhead, hname, BracketKey.formOf?, hdigits, hindex, hsub, Except.map]

theorem readAll_of_forall {param : Value} {parameters : Mapping Value}
    {f : String × Value → Option Assignment}
    (h : ∀ p ∈ parameters, read? param p.1 p.2 = .ok (f p)) :
    readAll param parameters = .ok (parameters.filterMap f) := by
  induction parameters with
  | nil => rfl
  | cons p rest ih =>
      obtain ⟨hp, hrest⟩ := List.forall_mem_cons.1 h
      rw [readAll, hp, ih hrest]
      cases hf : f p <;> simp [hf, Except.bind, Except.map]

theorem readAll_cons_eq_ok_iff {param : Value} {p : String × Value} {rest : Mapping Value}
    {as : List Assignment} : readAll param (p :: rest) = .ok as ↔
      ∃ first more, read? param p.1 p.2 = .ok first ∧ readAll param rest = .ok more ∧
        first.toList ++ more = as := by
  rw [readAll]
  cases read? param p.1 p.2 with
  | error fault => simp [Except.bind]
  | ok first => cases readAll param rest <;> simp [Except.bind, Except.map]

end Assignment

/-- What stands directly under a name after something is set there: an entry replaces what is no
mapping. -/
def setDirect (current : Option Value) : Option String × Value → Option Value
  | (none, value) => some value
  | (some sub, value) =>
    let entries := match current with
      | some (.mapping entries) => entries
      | _ => []
    some (.mapping (Mapping.insert sub value entries))

theorem foldl_setDirect_mapping (entries : Mapping Value) (m : Mapping Value) :
    (entries.map fun (sub, value) => (some sub, value)).foldl setDirect (some (.mapping m)) =
      some (.mapping (Mapping.update m entries)) := by
  induction entries generalizing m with
  | nil => rfl
  | cons entry rest ih => exact ih _

theorem foldl_setDirect_entries {entries : Mapping Value} (h : entries ≠ []) :
    (entries.map fun (sub, value) => (some sub, value)).foldl setDirect none =
      some (.mapping (Mapping.update [] entries)) := by
  obtain ⟨entry, rest, rfl⟩ := List.exists_cons_of_ne_nil h
  exact foldl_setDirect_mapping rest _

namespace Collected

variable {c : Collected} {name : String}

def assign (c : Collected) (a : Assignment) : Collected :=
  match a.place with
  | .value => c.setValue a.name a.value
  | .entry sub => c.setEntry a.name sub a.value
  | .item index sub => c.setItem a.name index sub a.value

def assignAll (c : Collected) (as : List Assignment) : Collected :=
  as.foldl assign c

structure Ordered (c : Collected) : Prop where
  direct : (Mapping.keys c.direct).Nodup
  indexed : (Mapping.keys c.indexed).Nodup
  sorted : ∀ name, ∀ items ∈ Mapping.find? name c.indexed, Items.Sorted items

theorem ordered_empty : Ordered {} :=
  ⟨List.nodup_nil, List.nodup_nil, by simp⟩

theorem find?_direct_assign (c : Collected) (a : Assignment) :
    Mapping.find? name (c.assign a).direct =
      if a.name = name then a.direct?.toList.foldl setDirect (Mapping.find? name c.direct)
      else Mapping.find? name c.direct := by
  obtain ⟨other, place, value⟩ := a
  by_cases h : other = name
  · subst h
    cases place with
    | value => simp [assign, Assignment.direct?, setValue, setDirect, Mapping.find?_insert_self]
    | entry sub =>
        rw [if_pos rfl]
        exact Mapping.find?_insert_self _ _ _
    | item index sub => simp [assign, Assignment.direct?, setItem]
  · cases place <;>
      simp [assign, setValue, setEntry, setItem, h, Mapping.find?_insert_of_ne]

theorem find?_indexed_assign (c : Collected) (a : Assignment) :
    Mapping.find? name (c.assign a).indexed =
      if a.name = name ∧ a.item?.isSome then
        some (Items.insertAll ((Mapping.find? name c.indexed).getD []) a.item?.toList)
      else Mapping.find? name c.indexed := by
  obtain ⟨other, place, value⟩ := a
  by_cases h : other = name
  · subst h
    cases place <;>
      simp [assign, Assignment.item?, setValue, setEntry, setItem, Items.insertAll,
        Mapping.find?_insert_self]
  · cases place <;>
      simp [assign, setValue, setEntry, setItem, h, Mapping.find?_insert_of_ne]

theorem Ordered.assign (h : c.Ordered) (a : Assignment) : (c.assign a).Ordered := by
  refine ⟨?_, ?_, fun name items hitems => ?_⟩
  · rw [Collected.assign]
    split
    · exact Mapping.nodup_keys_insert _ _ h.direct
    · exact Mapping.nodup_keys_insert _ _ h.direct
    · exact h.direct
  · rw [Collected.assign]
    split
    · exact h.indexed
    · exact h.indexed
    · exact Mapping.nodup_keys_insert _ _ h.indexed
  · rw [find?_indexed_assign] at hitems
    split at hitems
    · obtain rfl := Option.some.inj hitems
      apply Items.sorted_insertAll
      cases hfound : Mapping.find? name c.indexed with
      | none => exact List.Pairwise.nil
      | some items => exact h.sorted name items hfound
    · exact h.sorted name items hitems

theorem Ordered.assignAll (h : c.Ordered) (as : List Assignment) : (c.assignAll as).Ordered := by
  induction as generalizing c with
  | nil => exact h
  | cons a rest ih => exact ih (h.assign a)

/-- What stands directly under a name is what its own assignments set there, in order. -/
theorem find?_direct_assignAll (c : Collected) (as : List Assignment) :
    Mapping.find? name (c.assignAll as).direct =
      ((Assignment.named name as).filterMap (·.direct?)).foldl setDirect
        (Mapping.find? name c.direct) := by
  induction as generalizing c with
  | nil => rfl
  | cons a rest ih =>
      show Mapping.find? name ((c.assign a).assignAll rest).direct = _
      rw [ih, find?_direct_assign]
      by_cases h : a.name = name
      · cases hd : a.direct? <;> simp [Assignment.named, h, hd]
      · simp [Assignment.named, h]

/-- The items under a name are what its own assignments add to them, in order. -/
theorem find?_indexed_assignAll (c : Collected) (as : List Assignment) :
    Mapping.find? name (c.assignAll as).indexed =
      if (Assignment.named name as).filterMap (·.item?) = [] then Mapping.find? name c.indexed
      else some (Items.insertAll ((Mapping.find? name c.indexed).getD [])
        ((Assignment.named name as).filterMap (·.item?))) := by
  induction as generalizing c with
  | nil => rfl
  | cons a rest ih =>
      show Mapping.find? name ((c.assign a).assignAll rest).indexed = _
      rw [ih, find?_indexed_assign]
      by_cases h : a.name = name
      · cases hi : a.item? with
        | none => simp [Assignment.named, h, hi]
        | some entry =>
            have hcons : (Assignment.named name (a :: rest)).filterMap (·.item?) =
                entry :: (Assignment.named name rest).filterMap (·.item?) := by
              simp [Assignment.named, h, hi]
            -- the name has items now, so only the first and the third case can be
            rw [hcons, if_neg (List.cons_ne_nil _ _)]
            split_ifs with hnil
            · simp [hnil]
            · exact False.elim (by simp_all)
            · simp [Items.insertAll]
            · exact False.elim (by simp_all)
      · simp [Assignment.named, h]

theorem find?_map_listOf (m : Mapping Items) :
    Mapping.find? name (m.map fun (name, items) => (name, c.listOf name items)) =
      (Mapping.find? name m).map (c.listOf name) := by
  induction m with
  | nil => rfl
  | cons entry rest ih =>
      by_cases hname : entry.1 = name
      · simp [Mapping.find?, hname]
      · simp [Mapping.find?, hname, ih]

/-- The result has under a name what stands there directly, behind which come the items if there
are any. -/
theorem find?_result (h : c.Ordered) :
    Mapping.find? name c.result =
      match Mapping.find? name c.indexed with
      | some items => some (c.listOf name items)
      | none => Mapping.find? name c.direct := by
  rw [result, Mapping.find?_update, find?_map_listOf]
  · cases Mapping.find? name c.indexed <;> rfl
  · simpa [Mapping.keys, Function.comp_def] using h.indexed

/-- What stands under a name after assignments: what its own set directly and, if some of them add
to items, behind it the items in order of their indices. -/
theorem find?_result_assignAll (as : List Assignment) (name : String) :
    Mapping.find? name (assignAll {} as).result =
      let direct := ((Assignment.named name as).filterMap (·.direct?)).foldl setDirect none
      let entries := (Assignment.named name as).filterMap (·.item?)
      if entries = [] then direct
      else some (.list (direct.toList ++
        (Items.insertAll [] entries).map fun (_, entries) => .mapping entries)) := by
  dsimp only
  rw [find?_result (ordered_empty.assignAll as), find?_indexed_assignAll, Mapping.find?_nil]
  split_ifs with h
  · exact find?_direct_assignAll {} as
  · show some (listOf _ name _) = _
    rw [listOf, find?_direct_assignAll]
    rfl

theorem nodup_keys_result (h : c.Ordered) : (Mapping.keys c.result).Nodup :=
  Mapping.nodup_keys_update _ h.direct

end Collected

theorem result_readOne (param : Value) (c : Collected) (rawKey : String) (raw : Value) :
    (readOne param c rawKey raw).result =
      (Assignment.read? param rawKey raw).map fun a => c.assignAll a.toList := by
  cases hkey : BracketKey.read? rawKey with
  | none => simp [readOne, Assignment.read?, hkey, Except.map, Collected.assignAll]
  | some key =>
      obtain ⟨head, _ | ⟨name, rest⟩⟩ := key
      · simp [readOne, Assignment.read?, hkey, Except.map, Collected.assignAll]
      · simp only [readOne, Assignment.read?, hkey]
        split_ifs with h
        · rfl
        · cases BracketKey.formOf? rest with
          | none => rfl
          | some form =>
              cases form with
              | value => rfl
              | entry sub => rfl
              | indexed digits sub =>
                  dsimp only
                  cases BracketKey.readIndex digits <;> rfl

/-- Reading parameters in order carries out their assignments in order. -/
theorem result_collect (param : Value) (c : Collected) (parameters : Mapping Value) :
    (collect param c parameters).result =
      (Assignment.readAll param parameters).map c.assignAll := by
  induction parameters generalizing c with
  | nil => rfl
  | cons p rest ih =>
      obtain ⟨key, raw⟩ := p
      have hone := result_readOne param c key raw
      rw [collect, Assignment.readAll]
      cases hread : Assignment.read? param key raw with
      | error e =>
          rw [hread] at hone
          rw [Outcome.bind_of_error hone]
          rfl
      | ok first =>
          rw [hread] at hone
          rw [Outcome.bind_of_ok hone, ih]
          cases Assignment.readAll param rest with
          | error e => rfl
          | ok more => simp [Except.map, Except.bind, Collected.assignAll]

/-- The head that keys are to have: the given one, or that of the settings if none is given. -/
def headOf (settings : Settings) (param : Option String) : Value :=
  match param with
  | none | some "" => settings.queryParam
  | some head => .text head

theorem headOf_some (settings : Settings) {head : String} (h : head ≠ "") :
    headOf settings (some head) = .text head := by
  rw [headOf]
  exact h

theorem filters_eq (settings : Settings) (parameters : Mapping Value) (param : Option String) :
    filters settings parameters param =
      (collect (headOf settings param) {} parameters).andThen fun c => pure c.result := rfl

theorem result_filters_eq (settings : Settings) (parameters : Mapping Value)
    (param : Option String) : (filters settings parameters param).result =
      (Assignment.readAll (headOf settings param) parameters).map fun as =>
        (Collected.assignAll {} as).result := by
  have hcollect := result_collect (headOf settings param) {} parameters
  rw [filters_eq]
  cases hread : Assignment.readAll (headOf settings param) parameters with
  | error e =>
      rw [hread] at hcollect
      exact congrArg Outcome.result (Outcome.bind_of_error hcollect _)
  | ok as =>
      rw [hread] at hcollect
      exact congrArg Outcome.result (Outcome.bind_of_ok hcollect _)

theorem result_filters_eq_ok_iff {settings : Settings} {parameters m : Mapping Value}
    {param : Option String} : (filters settings parameters param).result = .ok m ↔
      ∃ as, Assignment.readAll (headOf settings param) parameters = .ok as ∧
        (Collected.assignAll {} as).result = m := by
  rw [result_filters_eq]
  cases Assignment.readAll (headOf settings param) parameters <;> simp [Except.map]

theorem result_filters (settings : Settings) (parameters : Mapping Value) {head : String}
    (hhead : head ≠ "") :
    (filters settings parameters (some head)).result =
      (Assignment.readAll (.text head) parameters).map fun as =>
        (Collected.assignAll {} as).result := by
  rw [result_filters_eq, headOf_some settings hhead]

end RowFilter.Parameters
