import RowFilter.Proofs.BracketKeys
import RowFilter.Proofs.Collecting

/-!
Filters sent as parameters and read back. Under each name of a tree stands a datum, entries under
names of their own, or a series of such entries that is sent under increasing indices. Whatever the
order of the parameters that a tree is sent as, and whatever other parameters stand among them, what
is read is the tree. The only real obligation is a series: items come back in the order of their
indices as numbers, since the decimal texts of distinct indices are distinct keys.
-/

namespace RowFilter.Parameters

/-- Whether a text can be the head of a key, or stand in brackets there and be taken for a name. -/
structure Plain (text : String) : Prop where
  ne : text ≠ ""
  free : BracketFree text.toList

instance (text : String) : Decidable (Plain text) :=
  decidable_of_iff (text ≠ "" ∧ BracketFree text.toList)
    ⟨fun h => ⟨h.1, h.2⟩, fun h => ⟨h.ne, h.free⟩⟩

/-- A datum that can be sent: null, or a text that is not empty. -/
abbrev Scalar := { s : Option String // s ≠ some "" }

namespace Scalar

def value (s : Scalar) : Value :=
  match s.1 with
  | none => .null
  | some text => .text text

def sent (s : Scalar) : Value :=
  .text (s.1.getD "")

theorem lastOf_sent (s : Scalar) : lastOf s.sent = s.value := by
  obtain ⟨_ | text, hs⟩ := s
  · rfl
  · have hne : text ≠ "" := fun h => hs (congrArg some h)
    simp [sent, value, lastOf, hne]

end Scalar

structure Entries where
  data : Mapping Scalar
  ne : data ≠ []
  distinct : (Mapping.keys data).Nodup
  plain : ∀ sub ∈ Mapping.keys data, Plain sub

structure Series where
  items : List (Nat × Entries)
  ne : items ≠ []
  increasing : items.Pairwise (·.1 < ·.1)
  short : ∀ item ∈ items, item.1 < 10 ^ Text.maxDigits

inductive Node where
  | leaf (s : Scalar)
  | branch (entries : Entries)
  | series (series : Series)

structure Tree where
  nodes : Mapping Node
  distinct : (Mapping.keys nodes).Nodup
  plain : ∀ name ∈ Mapping.keys nodes, Plain name

/-- The texts in brackets of the key that assigns a value at a place under a name. -/
def Place.parts (name : String) : Place → List String
  | .value => [name]
  | .entry sub => [name, sub]
  | .item index sub => [name, index.repr, sub]

def Place.IsWritable : Place → Prop
  | .value => True
  | .entry sub => Plain sub
  | .item index sub => index < 10 ^ Text.maxDigits ∧ Plain sub

namespace Entries

variable (e : Entries)

def values : Mapping Value :=
  e.data.map fun (sub, s) => (sub, s.value)

theorem keys_values : Mapping.keys e.values = Mapping.keys e.data := by
  simp [Mapping.keys, values, Function.comp_def]

theorem nodup_keys_values : (Mapping.keys e.values).Nodup :=
  e.keys_values ▸ e.distinct

theorem values_ne_nil : e.values ≠ [] := by
  simpa [values] using e.ne

end Entries

namespace Node

def value : Node → Value
  | leaf s => s.value
  | branch entries => .mapping entries.values
  | series s => .list (s.items.map fun (_, entries) => .mapping entries.values)

def places : Node → List (Place × Scalar)
  | leaf s => [(.value, s)]
  | branch entries => entries.data.map fun (sub, s) => (.entry sub, s)
  | series s => s.items.flatMap fun (index, entries) =>
      entries.data.map fun (sub, s) => (.item index sub, s)

def assignments (name : String) (node : Node) : List Assignment :=
  node.places.map fun (place, s) => ⟨name, place, s.value⟩

theorem filterMap_direct?_branch (name : String) (e : Entries) :
    ((branch e).assignments name).filterMap (·.direct?) =
      e.values.map fun (sub, value) => (some sub, value) := by
  simp [assignments, places, Assignment.direct?, Entries.values, Function.comp_def]

theorem filterMap_item?_branch (name : String) (e : Entries) :
    ((branch e).assignments name).filterMap (·.item?) = [] := by
  simp [assignments, places, Assignment.item?, Function.comp_def]

theorem filterMap_direct?_series (name : String) (s : Series) :
    ((series s).assignments name).filterMap (·.direct?) = [] := by
  simp [assignments, places, Assignment.direct?, Function.comp_def, List.map_flatMap,
    List.filterMap_flatMap]

theorem filterMap_item?_series (name : String) (s : Series) :
    ((series s).assignments name).filterMap (·.item?) =
      s.items.flatMap fun (index, e) => e.values.map fun entry => (index, entry) := by
  simp [assignments, places, Assignment.item?, Entries.values, Function.comp_def, List.map_flatMap,
    List.filterMap_flatMap]

theorem map_mapping_series (s : Series) :
    (s.items.map fun (_, entries) => Value.mapping entries.values) =
      (s.items.map fun (i, e) => (i, e.values)).map fun (_, entries) => .mapping entries := by
  simp

theorem isWritable_of_mem_places {node : Node} {p : Place × Scalar} (h : p ∈ node.places) :
    p.1.IsWritable := by
  cases node with
  | leaf s =>
      obtain rfl := List.mem_singleton.1 h
      trivial
  | branch entries =>
      obtain ⟨entry, hentry, rfl⟩ := List.mem_map.1 h
      exact entries.plain entry.1 (List.mem_map_of_mem hentry)
  | series s =>
      obtain ⟨item, hitem, h⟩ := List.mem_flatMap.1 h
      obtain ⟨entry, hentry, rfl⟩ := List.mem_map.1 h
      exact ⟨s.short item hitem, item.2.plain entry.1 (List.mem_map_of_mem hentry)⟩

end Node

namespace Tree

def values (tree : Tree) : Mapping Value :=
  tree.nodes.map fun (name, node) => (name, node.value)

def written (head : String) (tree : Tree) : Mapping Value :=
  tree.nodes.flatMap fun (name, node) =>
    node.places.map fun (place, s) => (BracketKey.write ⟨head, place.parts name⟩, s.sent)

def assignments (tree : Tree) : List Assignment :=
  tree.nodes.flatMap fun (name, node) => node.assignments name

theorem keys_values (tree : Tree) : Mapping.keys tree.values = Mapping.keys tree.nodes := by
  simp [Mapping.keys, values, Function.comp_def]

theorem find?_values (tree : Tree) (name : String) :
    Mapping.find? name tree.values = (Mapping.find? name tree.nodes).map (·.value) := by
  rw [values]
  induction tree.nodes with
  | nil => rfl
  | cons entry rest ih =>
      by_cases h : entry.1 = name
      · simp [Mapping.find?, h]
      · simp [Mapping.find?, h, ih]

theorem named_assignments (tree : Tree) (name : String) :
    Assignment.named name tree.assignments =
      ((Mapping.find? name tree.nodes).map (·.assignments name)).getD [] := by
  have hall (other : String) (node : Node) : ∀ a ∈ node.assignments other, a.name = other := by
    intro a ha
    obtain ⟨p, _, rfl⟩ := List.mem_map.1 ha
    rfl
  obtain ⟨nodes, distinct, _⟩ := tree
  simp only [assignments]
  clear * - distinct hall
  induction nodes with
  | nil => rfl
  | cons entry rest ih =>
      obtain ⟨other, node⟩ := entry
      obtain ⟨hother, hrest⟩ := List.nodup_cons.1 distinct
      have happend : Assignment.named name
            (((other, node) :: rest).flatMap fun (name, node) => node.assignments name) =
          Assignment.named name (node.assignments other) ++
            Assignment.named name (rest.flatMap fun (name, node) => node.assignments name) := by
        simp [Assignment.named]
      rw [happend, ih hrest, Mapping.find?_cons]
      by_cases h : other = name
      · subst h
        have hkept : Assignment.named other (node.assignments other) = node.assignments other :=
          List.filter_eq_self.2 fun a ha => by simpa using hall other node a ha
        rw [if_pos rfl, hkept, Mapping.find?_eq_none_iff.2 hother]
        simp
      · have hdropped : Assignment.named name (node.assignments other) = [] :=
          List.filter_eq_nil_iff.2 fun a ha => by simpa [hall other node a ha] using h
        rw [if_neg h, hdropped, List.nil_append]

end Tree

variable {head : String}

theorem read?_write (hhead : Plain head) {name : String} (hname : Plain name) {place : Place}
    (hplace : place.IsWritable) (raw : Value) :
    Assignment.read? (.text head) (BracketKey.write ⟨head, place.parts name⟩) raw =
      .ok (some ⟨name, place, lastOf raw⟩) := by
  have hdigits (n : Nat) : BracketFree n.repr.toList :=
    BracketKey.bracketFree_of_isIndex (BracketKey.isIndex_repr n)
  have hparts : ∀ part ∈ place.parts name, BracketFree part.toList := by
    cases place with
    | value => simpa [Place.parts] using hname.free
    | entry sub => simpa [Place.parts] using ⟨hname.free, hplace.free⟩
    | item index sub =>
        simpa [Place.parts, -Nat.toList_repr] using ⟨hname.free, hdigits index, hplace.2.free⟩
  have hne : place.parts name ≠ [] := by cases place <;> simp [Place.parts]
  have hkey : BracketKey.read? (BracketKey.write ⟨head, place.parts name⟩) =
      some ⟨head, place.parts name⟩ :=
    BracketKey.read?_eq_some_iff.2 ⟨⟨hhead.ne, hhead.free, hne, hparts⟩, .inl rfl⟩
  refine Assignment.read?_eq_ok_some_iff.2 ?_
  cases place with
  | value => exact ⟨head, [], hkey, rfl, hname.ne, .value, rfl⟩
  | entry sub => exact ⟨head, [sub], hkey, rfl, hname.ne, .entry hplace.ne, rfl⟩
  | item index sub =>
      exact ⟨head, [index.repr, sub], hkey, rfl, hname.ne,
        .item (BracketKey.isIndex_repr index) (BracketKey.readIndex_repr hplace.1) hplace.2.ne, rfl⟩

theorem read?_of_not_prefix {rawKey : String} (h : ¬ (head ++ "[").toList <+: rawKey.toList)
    (raw : Value) : Assignment.read? (.text head) rawKey raw = .ok none := by
  unfold Assignment.read?
  split
  · next other name rest hkey =>
    have hother : head ≠ other := by
      rintro rfl
      obtain ⟨cs, hcs⟩ := BracketKey.exists_of_read?_eq_some hkey
      exact h ⟨cs, by simp [hcs]⟩
    simp [Value.asText?, hother]
  · rfl

/-- The parameters that a tree is sent as are read as what the tree assigns, in some order. -/
theorem readAll_written (hhead : Plain head) (tree : Tree) {others parameters : Mapping Value}
    (hothers : ∀ p ∈ others, ¬ (head ++ "[").toList <+: p.1.toList)
    (hperm : parameters.Perm (tree.written head ++ others)) :
    ∃ as, Assignment.readAll (.text head) parameters = .ok as ∧ as.Perm tree.assignments := by
  let f (p : String × Value) : Option Assignment :=
    (Assignment.read? (.text head) p.1 p.2).toOption.join
  have hread (name : String) (node : Node) (hname : Plain name) (p : Place × Scalar)
      (hp : p ∈ node.places) :
      Assignment.read? (.text head) (BracketKey.write ⟨head, p.1.parts name⟩) p.2.sent =
        .ok (some ⟨name, p.1, p.2.value⟩) := by
    rw [read?_write hhead hname (Node.isWritable_of_mem_places hp), Scalar.lastOf_sent]
  have hwritten : (tree.written head).filterMap f = tree.assignments := by
    rw [Tree.written, Tree.assignments, List.filterMap_flatMap]
    refine List.flatMap_congr fun (name, node) hentry => ?_
    have hname := tree.plain name (List.mem_map_of_mem hentry)
    show (node.places.map _).filterMap f = node.places.map _
    rw [List.filterMap_map, ← List.filterMap_eq_map]
    refine List.filterMap_congr fun p hp => ?_
    simp [f, hread name node hname p hp, Except.toOption]
  have hnone : others.filterMap f = [] := by
    rw [List.filterMap_eq_nil_iff]
    intro p hp
    simp [f, read?_of_not_prefix (hothers p hp), Except.toOption]
  -- each parameter is read by itself, so their order is that of the assignments
  refine ⟨parameters.filterMap f, Assignment.readAll_of_forall fun p hp => ?_, ?_⟩
  · rcases List.mem_append.1 (hperm.mem_iff.1 hp) with hp | hp
    · obtain ⟨entry, hentry, hp⟩ := List.mem_flatMap.1 hp
      obtain ⟨place, hplace, rfl⟩ := List.mem_map.1 hp
      have hname := tree.plain entry.1 (List.mem_map_of_mem hentry)
      simp [f, hread entry.1 entry.2 hname place hplace, Except.toOption]
    · simp [f, read?_of_not_prefix (hothers p hp), Except.toOption]
  · have hall := hperm.filterMap f
    rwa [List.filterMap_append, hwritten, hnone, List.append_nil] at hall

theorem same_of_perm_entries {entries : Mapping Value} {e : Entries}
    (h : entries.Perm e.values) : Value.Same (.mapping (Mapping.update [] entries))
      (.mapping e.values) := by
  have hkeys : (Mapping.keys entries).Nodup := (h.map Prod.fst).nodup_iff.2 e.nodup_keys_values
  rw [Mapping.update_of_nodup (by simpa using hkeys), List.nil_append]
  exact Value.same_of_perm h hkeys

theorem entriesAt_series {items : List (Nat × Entries)} (h : items.Pairwise (·.1 < ·.1))
    (index : Nat) :
    Items.entriesAt index (items.flatMap fun (i, e) => e.values.map fun entry => (i, entry)) =
      (Items.find? index (items.map fun (i, e) => (i, e.values))).getD [] := by
  induction items with
  | nil => rfl
  | cons item rest ih =>
      obtain ⟨i, e⟩ := item
      obtain ⟨hfirst, hrest⟩ := List.pairwise_cons.1 h
      have hcons : (((i, e) :: rest).flatMap fun (i, e) => e.values.map fun entry => (i, entry)) =
          (e.values.map fun entry => (i, entry)) ++
            rest.flatMap fun (i, e) => e.values.map fun entry => (i, entry) := rfl
      rw [hcons, Items.entriesAt_append, Items.entriesAt_map, ih hrest, List.map_cons,
        Items.find?_cons]
      by_cases hi : i = index
      · subst hi
        have hnone : Items.find? i (rest.map fun (i, e) => (i, e.values)) = none := by
          refine Items.find?_eq_none fun item hitem => ?_
          obtain ⟨other, hother, rfl⟩ := List.mem_map.1 hitem
          exact Nat.ne_of_gt (hfirst other hother)
        rw [hnone, if_pos rfl, if_pos rfl]
        simp
      · rw [if_neg hi, if_neg hi, List.nil_append]

/-- The items of a series that are added to in some order are the items, in order of their
indices. -/
theorem forall₂_series {entries : List (Nat × String × Value)} {s : Series}
    (h : entries.Perm
      (s.items.flatMap fun (i, e) => e.values.map fun entry => (i, entry))) :
    List.Forall₂ (fun a b => Value.Same (.mapping a.2) (.mapping b.2)) (Items.insertAll [] entries)
      (s.items.map fun (i, e) => (i, e.values)) := by
  have hsorted : Items.Sorted (s.items.map fun (i, e) => (i, e.values)) :=
    List.pairwise_map.2 s.increasing
  refine Items.forall₂_of_find? (r := fun a b => Value.Same (.mapping a) (.mapping b))
    (Items.sorted_insertAll _ List.Pairwise.nil) hsorted fun index => ?_
  have hat : (Items.entriesAt index entries).Perm
      ((Items.find? index (s.items.map fun (i, e) => (i, e.values))).getD []) := by
    rw [← entriesAt_series s.increasing]
    exact (h.filter _).map _
  rw [Items.find?_insertAll _ List.Pairwise.nil]
  cases hfound : Items.find? index (s.items.map fun (i, e) => (i, e.values)) with
  | none =>
      have hnil : Items.entriesAt index entries = [] := by simpa [hfound] using hat
      simp [hnil, Items.find?]
  | some values =>
      obtain ⟨item, hitem, heq⟩ := List.mem_map.1 (Items.exists_of_find?_eq_some hfound)
      obtain rfl : item.2.values = values := congrArg Prod.snd heq
      rw [hfound] at hat
      have hne : Items.entriesAt index entries ≠ [] := fun hnil =>
        item.2.values_ne_nil (by simpa [hnil] using hat)
      rw [if_neg hne]
      refine ⟨rfl, fun a ha b hb => ?_⟩
      obtain rfl := Option.some.inj ha
      obtain rfl := Option.some.inj hb
      exact same_of_perm_entries hat

/-- What stands under a name after the assignments of a node, in some order, is the node. -/
theorem exists_same_of_assignments {as : List Assignment} {name : String} {node : Node}
    (h : (Assignment.named name as).Perm (node.assignments name)) :
    ∃ v, Mapping.find? name (Collected.assignAll {} as).result = some v ∧
      Value.Same v node.value := by
  have hdirect := h.filterMap (·.direct?)
  have hitem := h.filterMap (·.item?)
  rw [Collected.find?_result_assignAll]
  cases node with
  | leaf s =>
      have hone : (Assignment.named name as).filterMap (·.direct?) = [(none, s.value)] :=
        List.perm_singleton.1 hdirect
      have hnil : (Assignment.named name as).filterMap (·.item?) = [] := List.perm_nil.1 hitem
      exact ⟨s.value, by simp only [hone, hnil]; rfl, .refl _⟩
  | branch e =>
      rw [Node.filterMap_item?_branch] at hitem
      rw [Node.filterMap_direct?_branch] at hdirect
      have hnil := List.perm_nil.1 hitem
      have hcomp := List.eq_map_comp_perm fun p : String × Value => (some p.1, p.2)
      obtain ⟨entries, hlist, hperm⟩ :=
        (congrFun (congrFun hcomp _) _).mpr hdirect
      have hne : entries ≠ [] := fun hnil => e.values_ne_nil (by simpa [hnil] using hperm.symm)
      refine ⟨.mapping (Mapping.update [] entries), ?_, same_of_perm_entries hperm⟩
      simp only [hnil, hlist, if_true]
      exact foldl_setDirect_entries hne
  | series s =>
      rw [Node.filterMap_item?_series] at hitem
      rw [Node.filterMap_direct?_series] at hdirect
      have hnil := List.perm_nil.1 hdirect
      have hitems := forall₂_series hitem
      have hne : (Assignment.named name as).filterMap (·.item?) ≠ [] := by
        intro hempty
        rw [hempty] at hitems
        exact s.ne (List.map_eq_nil_iff.1 (List.forall₂_nil_left_iff.1 hitems))
      simp only [hnil, if_neg hne]
      refine ⟨_, rfl, .list ?_⟩
      rw [Node.map_mapping_series, List.foldl_nil, Option.toList_none, List.nil_append,
        List.forall₂_map_left_iff, List.forall₂_map_right_iff]
      exact hitems

/-- What is read from the parameters that a tree is sent as, in any order and among any others, is
the tree. -/
theorem result_filters_written (settings : Settings) (hhead : Plain head) (tree : Tree)
    {others parameters : Mapping Value}
    (hothers : ∀ p ∈ others, ¬ (head ++ "[").toList <+: p.1.toList)
    (hperm : parameters.Perm (tree.written head ++ others)) :
    ∃ m, (filters settings parameters (some head)).result = .ok m ∧
      Value.Same (.mapping m) (.mapping tree.values) := by
  obtain ⟨as, has, hassigned⟩ := readAll_written hhead tree hothers hperm
  have hnamed (name : String) : (Assignment.named name as).Perm
      (((Mapping.find? name tree.nodes).map (·.assignments name)).getD []) :=
    tree.named_assignments name ▸ hassigned.filter _
  have hnode (name : String) (node : Node) (hfound : Mapping.find? name tree.nodes = some node) :
      ∃ v, Mapping.find? name (Collected.assignAll {} as).result = some v ∧
        Value.Same v node.value := by
    apply exists_same_of_assignments
    simpa [hfound] using hnamed name
  have hnone (name : String) (hfound : Mapping.find? name tree.nodes = none) :
      Mapping.find? name (Collected.assignAll {} as).result = none := by
    have hnil : Assignment.named name as = [] := by simpa [hfound] using hnamed name
    simp [Collected.find?_result_assignAll, hnil]
  have hnodup : (Mapping.keys (Collected.assignAll {} as).result).Nodup :=
    Collected.nodup_keys_result (Collected.ordered_empty.assignAll as)
  have hkeys : (Mapping.keys (Collected.assignAll {} as).result).Perm
      (Mapping.keys tree.values) := by
    rw [List.perm_ext_iff_of_nodup hnodup (tree.keys_values ▸ tree.distinct), tree.keys_values]
    intro name
    rw [Mapping.mem_keys_iff, Mapping.mem_keys_iff]
    constructor
    · rintro ⟨v, hv⟩
      by_contra habsent
      have hfound : Mapping.find? name tree.nodes = none :=
        Option.eq_none_iff_forall_ne_some.2 fun node h => habsent ⟨node, h⟩
      rw [hnone name hfound] at hv
      cases hv
    · rintro ⟨node, hfound⟩
      obtain ⟨v, hv, _⟩ := hnode name node hfound
      exact ⟨v, hv⟩
  refine ⟨_, by rw [result_filters settings parameters hhead.ne, has]; rfl, ?_⟩
  refine .mapping hkeys fun name v w hv hw => ?_
  rw [tree.find?_values] at hw
  obtain ⟨node, hfound, rfl⟩ := Option.map_eq_some_iff.1 hw
  obtain ⟨v', hv', hsame⟩ := hnode name node hfound
  rw [hv] at hv'
  obtain rfl := Option.some.inj hv'
  exact hsame

/-- A null under one name, and two items under another that come in the wrong order of texts. -/
def Tree.sample : Tree where
  nodes := [("age", .leaf ⟨none, by decide⟩),
    ("tags", .series {
      items := [
        (2, ⟨[("value", ⟨some "a", by decide⟩)], by decide, by decide, by decide⟩),
        (10, ⟨[("operator", ⟨some "not_null", by decide⟩)], by decide, by decide, by decide⟩)]
      ne := by simp
      increasing := by simp
      short := by
        have hlong : 10 ^ 2 ≤ 10 ^ Text.maxDigits := Nat.pow_le_pow_right (by decide) (by decide)
        rintro item hitem
        rcases List.mem_pair.1 hitem with rfl | rfl
        · exact Nat.lt_of_lt_of_le (by decide) hlong
        · exact Nat.lt_of_lt_of_le (by decide) hlong })]
  distinct := by decide
  plain := by decide

theorem result_filters_written_sample :
    ∃ m, (filters (.ofProject .null)
        [("page", .text "2"), ("filter[tags][10][operator]", .text "not_null"),
          ("filter[tags][2][value]", .text "a"), ("filter[age]", .text "")]
        (some "filter")).result = .ok m ∧
      Value.Same (.mapping m)
        (.mapping [("age", .null), ("tags", .list [.mapping [("value", .text "a")],
          .mapping [("operator", .text "not_null")]])]) := by
  have hwritten : Tree.sample.written "filter" = [("filter[age]", .text ""),
      ("filter[tags][2][value]", .text "a"), ("filter[tags][10][operator]", .text "not_null")] :=
    rfl
  have hothers : ∀ p ∈ [("page", Value.text "2")], ¬ ("filter" ++ "[").toList <+: p.1.toList := by
    simp
  refine result_filters_written (.ofProject .null) (by decide) Tree.sample hothers ?_
  rw [hwritten]
  exact List.reverse_perm (α := String × Value) ([_, _, _] ++ [("page", .text "2")])

end RowFilter.Parameters
