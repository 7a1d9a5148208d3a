import Mathlib.Data.Nat.Digits.Defs
import RowFilter.Proofs.Indices

/-!
What stands under a name. Parameters that carry filters may contradict one another: a value is sent
to a name to which entries are sent as well, entries are sent twice, and one index is written in
several ways. `Means` says what a name stands for, without reading the parameters one by one: the
last value and what follows it decide what is there directly, and behind it come the items in order
of their indices, each made up of the last value of every entry. Reading parameters keeps this true
after each of them.
-/

namespace RowFilter.Parameters

/-! ### What a parameter sends -/

/-- Whether a text is the last one of a parameter, which has one or a list of them. In place of a
missing one stands the empty text. -/
inductive LastText : Value → String → Prop where
  | only (s : String) : LastText (.text s) s
  | none : LastText (.list []) ""
  | last (texts : List String) (s : String) : LastText (.list ((texts ++ [s]).map .text)) s

def meant (s : String) : Value :=
  if s = "" then .null else .text s

def Numbers (digits : String) (n : Nat) : Prop :=
  digits ≠ "" ∧ ∃ values : List Nat, digits.toList.map Text.decimalValue? = values.map some ∧
    n = Nat.ofDigits 10 values.reverse

/-- Whether the texts in brackets of a key put what it sends at a place under a name. -/
inductive Place.IsPut (name : String) : Place → List String → Prop where
  | value : IsPut name .value [name]
  | entry {sub : String} (hsub : Plain sub) : IsPut name (.entry sub) [name, sub]
  | item {digits sub : String} {index : Nat} (hdigits : Numbers digits index)
      (hsub : Plain sub) : IsPut name (.item index sub) [name, digits, sub]

structure Sends (head : Value) (name : String) (place : Place) (p : String × Value)
    (v : Value) : Prop where
  plain : Plain name
  key : ∃ text parts, head.asText? = some text ∧ Plain text ∧ place.IsPut name parts ∧
    (p.1 = BracketKey.write ⟨text, parts⟩ ∨ p.1 = BracketKey.write ⟨text, parts⟩ ++ "\n")
  value : ∃ s, LastText p.2 s ∧ v = meant s

/-- Whether the last of the parameters that send something to a place sends a value. -/
def IsLast (head : Value) (name : String) (place : Place) (parameters : Mapping Value)
    (v : Value) : Prop :=
  ∃ before p after, parameters = before ++ p :: after ∧ Sends head name place p v ∧
    ∀ q ∈ after, ∀ w, ¬ Sends head name place q w

/-- Whether a mapping has the last value of every entry that parameters send to its place. -/
structure AreLast (head : Value) (name : String) (place : String → Place)
    (parameters entries : Mapping Value) : Prop where
  nodup : (Mapping.keys entries).Nodup
  find? : ∀ sub v, Mapping.find? sub entries = some v ↔
    IsLast head name (place sub) parameters v

/-- Whether of the values that parameters send to a name one is the last, and which parameters come
after it; if no value is sent to the name, all do. -/
inductive LastValue (head : Value) (name : String) :
    Mapping Value → Option Value → Mapping Value → Prop where
  | none {parameters : Mapping Value}
      (h : ∀ p ∈ parameters, ∀ v, ¬ Sends head name .value p v) :
      LastValue head name parameters none parameters
  | some {before after : Mapping Value} {p : String × Value} {v : Value}
      (hp : Sends head name .value p v)
      (h : ∀ q ∈ after, ∀ w, ¬ Sends head name .value q w) :
      LastValue head name (before ++ p :: after) (some v) after

inductive Directly (head : Value) (name : String) (parameters : Mapping Value) :
    Option Value → Prop where
  | value {last : Option Value} {after : Mapping Value}
      (hlast : LastValue head name parameters last after)
      (h : ∀ p ∈ after, ∀ sub v, ¬ Sends head name (.entry sub) p v) :
      Directly head name parameters last
  | entries {last : Option Value} {after entries : Mapping Value}
      (hlast : LastValue head name parameters last after)
      (h : ∃ p ∈ after, ∃ sub v, Sends head name (.entry sub) p v)
      (hentries : AreLast head name .entry after entries) :
      Directly head name parameters (some (.mapping entries))

/-- Whether mappings are those that parameters make up under a name, one for each index, in
increasing order of the indices. -/
structure AreItems (head : Value) (name : String) (parameters : Mapping Value) (items : Items) :
    Prop where
  sorted : Items.Sorted items
  index : ∀ i, (∃ entries, (i, entries) ∈ items) ↔
    ∃ p ∈ parameters, ∃ sub v, Sends head name (.item i sub) p v
  entries : ∀ i entries, (i, entries) ∈ items → AreLast head name (.item i) parameters entries

/-- What a name stands for: what parameters set directly, or a list of that and of the items, if
there are any. -/
inductive Means (head : Value) (name : String) (parameters : Mapping Value) :
    Option Value → Prop where
  | direct {v : Option Value} (hdirect : Directly head name parameters v)
      (h : ∀ p ∈ parameters, ∀ i sub v, ¬ Sends head name (.item i sub) p v) :
      Means head name parameters v
  | items {v : Option Value} {items : Items} (hdirect : Directly head name parameters v)
      (hitems : AreItems head name parameters items) (hne : items ≠ []) :
      Means head name parameters
        (some (.list (v.toList ++ items.map fun (_, entries) => .mapping entries)))

section Reading

variable {head raw v : Value} {rawKey name digits : String} {n : Nat} {place : Place}
  {x : Option Assignment}

theorem lastOf_eq_meant {s : String} (h : LastText raw s) : lastOf raw = meant s := by
  cases h with
  | only s => by_cases hs : s = "" <;> simp [lastOf, meant, hs]
  | none => rfl
  | last texts s => by_cases hs : s = "" <;> simp [lastOf, meant, hs]

theorem meant_ne_mapping (s : String) (entries : Mapping Value) : meant s ≠ .mapping entries := by
  unfold meant
  split <;> simp

theorem Numbers.isIndex (h : Numbers digits n) : BracketKey.isIndex digits = true := by
  obtain ⟨hne, values, hvalues, _⟩ := h
  refine BracketKey.isIndex_iff.2 ⟨hne, fun c hc => ?_⟩
  have hmem : Text.decimalValue? c ∈ values.map some := hvalues ▸ List.mem_map_of_mem hc
  obtain ⟨value, _, hvalue⟩ := List.mem_map.1 hmem
  exact Text.isDigit_of_decimalValue?_eq_some hvalue.symm

theorem ofDigits_eq (values : List Nat) :
    Text.ofDigits values = Nat.ofDigits 10 values.reverse := by
  rw [Text.ofDigits, Nat.ofDigits_eq_foldr, List.foldr_reverse]
  simp only [Nat.cast_id, Nat.add_comm]

theorem readIndex_eq_ok_iff (hok : ∃ m, BracketKey.readIndex digits = .ok m) (hne : digits ≠ "") :
    BracketKey.readIndex digits = .ok n ↔ Numbers digits n := by
  have hall (cs : List Char) (h : ∀ c ∈ cs, (Text.decimalValue? c).isSome = true) :
      cs.map Text.decimalValue? = (cs.filterMap Text.decimalValue?).map some := by
    induction cs with
    | nil => rfl
    | cons c cs ih =>
        obtain ⟨hc, hcs⟩ := List.forall_mem_cons.1 h
        obtain ⟨value, hvalue⟩ := Option.isSome_iff_exists.1 hc
        rw [List.map_cons, ih hcs, List.filterMap_cons_some hvalue, List.map_cons, hvalue]
  obtain ⟨m, hm⟩ := hok
  have hread {values : List Nat}
      (hvalues : digits.toList.map Text.decimalValue? = values.map some) :
      BracketKey.readIndex digits = .ok (Nat.ofDigits 10 values.reverse) := by
    rw [BracketKey.readIndex_of_map hvalues] at hm ⊢
    split at hm
    · cases hm
    · next hshort => rw [if_neg hshort, ofDigits_eq]
  constructor
  · intro hn
    obtain ⟨_, hnumeral⟩ := (BracketKey.readIndex_eq digits).resolve_right fun h => by
      rw [h.1] at hn
      cases hn
    have hvalues := hall _ hnumeral.decimal
    exact ⟨hne, _, hvalues, Except.ok.inj (hn.symm.trans (hread hvalues))⟩
  · rintro ⟨_, values, hvalues, rfl⟩
    exact hread hvalues

theorem Place.IsPut.isWritable {text : String} {parts : List String} (h : place.IsPut name parts)
    (htext : Plain text) (hname : Plain name) : BracketKey.IsWritable ⟨text, parts⟩ := by
  refine ⟨htext.ne, htext.free, ?_, ?_⟩
  · cases h <;> simp
  · cases h with
    | value => simpa using hname.free
    | entry hsub => simpa using ⟨hname.free, hsub.free⟩
    | item hdigits hsub =>
        simpa using ⟨hname.free, BracketKey.bracketFree_of_isIndex hdigits.isIndex, hsub.free⟩

theorem sends_iff (hraw : ∃ s, LastText raw s)
    (h : Assignment.read? head rawKey raw = .ok x) :
    Sends head name place (rawKey, raw) v ↔ x = some ⟨name, place, v⟩ := by
  have hassigns : x = some ⟨name, place, v⟩ ↔
      Assignment.read? head rawKey raw = .ok (some ⟨name, place, v⟩) := by
    rw [h, Except.ok.injEq]
  rw [hassigns, Assignment.read?_eq_ok_some_iff]
  constructor
  · rintro ⟨hname, ⟨text, parts, hhead, htext, hput, hwritten⟩, s, hs, rfl⟩
    have hkey : BracketKey.read? rawKey = some ⟨text, parts⟩ :=
      BracketKey.read?_eq_some_iff.2 ⟨hput.isWritable htext hname, hwritten⟩
    have hvalue : meant s = lastOf raw := (lastOf_eq_meant hs).symm
    cases hput with
    | value => exact ⟨text, _, hkey, hhead, hname.ne, .value, hvalue⟩
    | entry hsub => exact ⟨text, _, hkey, hhead, hname.ne, .entry hsub.ne, hvalue⟩
    | @item digits sub index hdigits hsub =>
        have hread : ∃ n, BracketKey.readIndex digits = .ok n := by
          refine (BracketKey.readIndex_eq digits).elim And.left ?_
          rintro ⟨_, hnumeral⟩
          have hmisnumbered : IsMisnumbered head rawKey digits :=
            ⟨⟨text, name, sub, hhead, htext, hname, hsub, hwritten⟩, hdigits.isIndex, hnumeral⟩
          rw [Assignment.read?_eq_error_iff.2 ⟨digits, hmisnumbered, rfl⟩] at h
          cases h
        have hindex : BracketKey.readIndex digits = .ok index :=
          (readIndex_eq_ok_iff hread hdigits.1).2 hdigits
        exact ⟨text, _, hkey, hhead, hname.ne, .item hdigits.isIndex hindex hsub.ne, hvalue⟩
  · rintro ⟨text, rest, hkey, hhead, hname, hplace, hvalue⟩
    obtain ⟨s, hs⟩ := hraw
    obtain ⟨hwritable, hwritten⟩ := BracketKey.read?_eq_some_iff.1 hkey
    have htext : Plain text := ⟨hwritable.head_ne, hwritable.head_free⟩
    have hplain : Plain name := ⟨hname, hwritable.parts_free _ (by simp)⟩
    refine ⟨hplain, ⟨text, _, hhead, htext, ?_, hwritten⟩, s, hs,
      hvalue.trans (lastOf_eq_meant hs)⟩
    cases hplace with
    | value => exact .value
    | entry hsub => exact .entry ⟨hsub, hwritable.parts_free _ (by simp)⟩
    | @item digits sub index hdigits hindex hsub =>
        have hnumbers : Numbers digits index :=
          (readIndex_eq_ok_iff ⟨index, hindex⟩ (BracketKey.isIndex_iff.1 hdigits).1).1 hindex
        exact .item hnumbers ⟨hsub, hwritable.parts_free _ (by simp)⟩

end Reading

/-! ### One more parameter -/

section Steps

variable {head v : Value} {name sub : String} {place : Place} {places : String → Place}
  {index : Nat} {parameters entries : Mapping Value} {p : String × Value} {items : Items}
  {last direct : Option Value}

/-- The last value sent to a place is that of the new parameter, if it sends one. -/
theorem isLast_concat_iff : IsLast head name place (parameters ++ [p]) v ↔
    Sends head name place p v ∨
      (∀ w, ¬ Sends head name place p w) ∧ IsLast head name place parameters v := by
  constructor
  · rintro ⟨before, q, after, heq, hq, hafter⟩
    rcases after.eq_nil_or_concat with rfl | ⟨after, r, rfl⟩
    · obtain ⟨_, hpq⟩ := List.append_inj' heq rfl
      obtain rfl := List.head_eq_of_cons_eq hpq
      exact .inl hq
    · have hsplit : parameters ++ [p] = (before ++ q :: after) ++ [r] := by simpa using heq
      obtain ⟨rfl, hpr⟩ := List.append_inj' hsplit rfl
      obtain rfl := List.head_eq_of_cons_eq hpr
      refine .inr ⟨hafter p (by simp), before, q, after, rfl, hq, fun s hs => ?_⟩
      exact hafter s (by simp [hs])
  · rintro (hp | ⟨hp, before, q, after, rfl, hq, hafter⟩)
    · exact ⟨parameters, p, [], rfl, hp, List.forall_mem_nil _⟩
    · refine ⟨before, q, after ++ [p], by simp, hq, List.forall_mem_append.2 ⟨hafter, ?_⟩⟩
      exact List.forall_mem_singleton.2 hp

theorem not_isLast (h : ∀ p ∈ parameters, ∀ v, ¬ Sends head name place p v) (v : Value) :
    ¬ IsLast head name place parameters v := by
  rintro ⟨before, p, after, rfl, hp, _⟩
  exact h p (by simp) v hp

theorem areLast_nil (h : ∀ p ∈ parameters, ∀ sub v, ¬ Sends head name (places sub) p v) :
    AreLast head name places parameters [] :=
  ⟨List.nodup_nil, fun sub v => iff_of_false nofun (not_isLast (fun p hp => h p hp sub) v)⟩

theorem AreLast.pass (h : AreLast head name places parameters entries)
    (hp : ∀ sub v, ¬ Sends head name (places sub) p v) :
    AreLast head name places (parameters ++ [p]) entries := by
  refine ⟨h.nodup, fun sub v => ?_⟩
  rw [isLast_concat_iff, h.find?, or_iff_right (hp sub v), and_iff_right (hp sub)]

theorem AreLast.insert (h : AreLast head name places parameters entries)
    (hp : ∀ other w, Sends head name (places other) p w ↔ other = sub ∧ w = v) :
    AreLast head name places (parameters ++ [p]) (Mapping.insert sub v entries) := by
  refine ⟨Mapping.nodup_keys_insert _ _ h.nodup, fun other w => ?_⟩
  rw [isLast_concat_iff, Mapping.find?_insert, ← h.find?]
  simp only [hp]
  by_cases hsub : sub = other
  · simp [hsub, eq_comm]
  · simp [hsub, Ne.symm hsub]

theorem LastValue.pass {after : Mapping Value} (h : LastValue head name parameters last after)
    (hp : ∀ v, ¬ Sends head name .value p v) :
    LastValue head name (parameters ++ [p]) last (after ++ [p]) := by
  cases h with
  | none h => exact .none (List.forall_mem_append.2 ⟨h, List.forall_mem_singleton.2 hp⟩)
  | some hq h =>
      rw [List.append_assoc, List.cons_append]
      exact .some hq (List.forall_mem_append.2 ⟨h, List.forall_mem_singleton.2 hp⟩)

theorem Directly.pass (h : Directly head name parameters direct)
    (hvalue : ∀ v, ¬ Sends head name .value p v)
    (hentry : ∀ sub v, ¬ Sends head name (.entry sub) p v) :
    Directly head name (parameters ++ [p]) direct := by
  cases h with
  | value hlast h =>
      refine .value (hlast.pass hvalue) (List.forall_mem_append.2 ⟨h, ?_⟩)
      exact List.forall_mem_singleton.2 hentry
  | entries hlast h hentries =>
      obtain ⟨q, hq, hsends⟩ := h
      exact .entries (hlast.pass hvalue) ⟨q, List.mem_append_left _ hq, hsends⟩
        (hentries.pass hentry)

theorem Directly.setValue (hp : Sends head name .value p v) :
    Directly head name (parameters ++ [p]) (some v) :=
  .value (.some hp (List.forall_mem_nil _)) (List.forall_mem_nil _)

/-- An entry is added to those that came after the last value, and replaces this value if there
were none. -/
theorem Directly.setEntry (h : Directly head name parameters direct)
    (hvalue : ∀ v, ¬ Sends head name .value p v)
    (hentry : ∀ other w, Sends head name (.entry other) p w ↔ other = sub ∧ w = v) :
    Directly head name (parameters ++ [p]) (setDirect direct (some sub, v)) := by
  have hsends (after : Mapping Value) :
      ∃ q ∈ after ++ [p], ∃ sub v, Sends head name (.entry sub) q v :=
    ⟨p, by simp, sub, v, (hentry sub v).2 ⟨rfl, rfl⟩⟩
  cases h with
  | value hlast h =>
      have hdirect : setDirect direct (some sub, v) =
          some (.mapping (Mapping.insert sub v [])) := by
        cases hlast with
        | none => rfl
        | some hp =>
            obtain ⟨s, _, rfl⟩ := hp.value
            unfold setDirect
            dsimp only
            split
            · next heq => exact absurd (Option.some.inj heq) (meant_ne_mapping s _)
            · rfl
      rw [hdirect]
      exact .entries (hlast.pass hvalue) (hsends _) ((areLast_nil h).insert hentry)
  | entries hlast h hentries =>
      exact .entries (hlast.pass hvalue) (hsends _) (hentries.insert hentry)

theorem AreItems.pass (h : AreItems head name parameters items)
    (hp : ∀ i sub v, ¬ Sends head name (.item i sub) p v) :
    AreItems head name (parameters ++ [p]) items := by
  refine ⟨h.sorted, fun i => ?_, fun i entries hi => (h.entries i entries hi).pass (hp i)⟩
  rw [h.index]
  simp [hp]

theorem AreItems.insert (h : AreItems head name parameters items)
    (hp : ∀ i other w, Sends head name (.item i other) p w ↔ i = index ∧ other = sub ∧ w = v) :
    AreItems head name (parameters ++ [p]) (Items.insert index sub v items) := by
  have hsorted : Items.Sorted (Items.insert index sub v items) :=
    Items.sorted_insert index sub v h.sorted
  have hmem (i : Nat) (entries : Mapping Value) :
      (i, entries) ∈ Items.insert index sub v items ↔
        if i = index then
          entries = Mapping.insert sub v ((Items.find? index items).getD [])
        else (i, entries) ∈ items := by
    rw [← Items.find?_eq_some_iff hsorted, Items.find?_insert _ _ _ _ h.sorted]
    split
    · rw [Option.some.injEq, eq_comm]
    · rw [Items.find?_eq_some_iff h.sorted]
  have hold : AreLast head name (.item index) parameters ((Items.find? index items).getD []) := by
    cases hfound : Items.find? index items with
    | none =>
        refine areLast_nil fun q hq sub w hsends => ?_
        obtain ⟨entries, hentries⟩ := (h.index index).2 ⟨q, hq, sub, w, hsends⟩
        rw [(Items.find?_eq_some_iff h.sorted).2 hentries] at hfound
        cases hfound
    | some entries => exact h.entries index entries (Items.exists_of_find?_eq_some hfound)
  refine ⟨hsorted, fun i => ?_, fun i entries hi => ?_⟩
  · by_cases hindex : i = index
    · refine iff_of_true ⟨_, (hmem i _).2 (by rw [if_pos hindex])⟩ ?_
      exact ⟨p, by simp, sub, v, (hp i sub v).2 ⟨hindex, rfl, rfl⟩⟩
    · simp only [hmem, if_neg hindex, h.index]
      simp [hp, hindex]
  · rw [hmem] at hi
    split at hi
    · next hindex =>
      rw [hi, hindex]
      exact hold.insert fun other w => by simp [hp]
    · next hindex => exact (h.entries i entries hi).pass fun other w => by simp [hp, hindex]

end Steps

/-! ### All parameters -/

section Runs

variable {head : Value} {parameters more : Mapping Value} {c : Collected} {p : String × Value}
  {x : Option Assignment} {as : List Assignment} {name : String}

/-- Whether what was collected is what parameters set and add under each name. -/
structure Stands (head : Value) (parameters : Mapping Value) (c : Collected) : Prop where
  ordered : c.Ordered
  direct : ∀ name, Directly head name parameters (Mapping.find? name c.direct)
  items : ∀ name, AreItems head name parameters ((Mapping.find? name c.indexed).getD [])
  items_ne : ∀ name, Mapping.find? name c.indexed ≠ some []

theorem stands_empty (head : Value) : Stands head [] {} := by
  refine ⟨Collected.ordered_empty, fun name => ?_, fun name => ?_, fun name => nofun⟩
  · exact .value (.none (List.forall_mem_nil _)) (List.forall_mem_nil _)
  · exact ⟨List.Pairwise.nil, fun i => by simp, fun i entries => nofun⟩

theorem Items.insert_ne_nil (index : Nat) (sub : String) (v : Value) (items : Items) :
    Items.insert index sub v items ≠ [] := by
  cases items with
  | nil => simp [insert]
  | cons item rest =>
      rw [insert]
      split_ifs <;> simp

theorem Stands.assign (h : Stands head parameters c)
    (hp : ∀ name place v, Sends head name place p v ↔ x = some ⟨name, place, v⟩) :
    Stands head (parameters ++ [p]) (c.assignAll x.toList) := by
  cases x with
  | none =>
      have hnot (name : String) (place : Place) (v : Value) : ¬ Sends head name place p v := by
        simp [hp]
      exact ⟨h.ordered, fun name => (h.direct name).pass (hnot name _) fun sub => hnot name _,
        fun name => (h.items name).pass fun i sub => hnot name _, h.items_ne⟩
  | some a =>
      show Stands head (parameters ++ [p]) (c.assign a)
      obtain ⟨other, place, value⟩ := a
      refine ⟨h.ordered.assign _, fun name => ?_, fun name => ?_, fun name => ?_⟩
      · rw [Collected.find?_direct_assign]
        split
        · next hname =>
          obtain rfl : other = name := hname
          cases place with
          | value => exact .setValue ((hp other .value value).2 rfl)
          | entry sub =>
              exact (h.direct other).setEntry (fun v => by simp [hp])
                fun sub' v => by simp [hp, eq_comm]
          | item index sub => exact (h.direct other).pass (by simp [hp]) (by simp [hp])
        · next hname =>
          have hname : other ≠ name := hname
          exact (h.direct name).pass (by simp [hp, hname]) (by simp [hp, hname])
      · rw [Collected.find?_indexed_assign]
        split
        · next hname =>
          obtain ⟨hname, hitem⟩ := hname
          obtain rfl : other = name := hname
          cases place with
          | item index sub =>
              exact (h.items other).insert fun i sub' v => by simp [hp, eq_comm, and_assoc]
          | _ => cases hitem
        · next hname =>
          refine (h.items name).pass fun i sub v hsends => hname ?_
          cases (hp _ _ _).1 hsends
          exact ⟨rfl, rfl⟩
      · rw [Collected.find?_indexed_assign]
        split
        · next hname =>
          cases place with
          | item index sub =>
              exact fun hnil => Items.insert_ne_nil index sub value _ (Option.some.inj hnil)
          | _ => cases hname.2
        · exact h.items_ne name

/-- What was collected stays what parameters set and add while more of them are read. -/
theorem Stands.assignAll (h : Stands head parameters c)
    (hsent : ∀ p ∈ more, ∃ s, LastText p.2 s) (hread : Assignment.readAll head more = .ok as) :
    Stands head (parameters ++ more) (c.assignAll as) := by
  induction more generalizing parameters c as with
  | nil =>
      cases hread
      rwa [List.append_nil]
  | cons p rest ih =>
      obtain ⟨hp, hrest⟩ := List.forall_mem_cons.1 hsent
      obtain ⟨first, others, hfirst, hmore, rfl⟩ := Assignment.readAll_cons_eq_ok_iff.1 hread
      have hone : Stands head (parameters ++ [p]) (c.assignAll first.toList) :=
        h.assign fun name place v => sends_iff hp hfirst
      have hall := ih hone hrest hmore
      rw [List.append_assoc] at hall
      rwa [Collected.assignAll, List.foldl_append]

theorem Stands.means (h : Stands head parameters c) (name : String) :
    Means head name parameters (Mapping.find? name c.result) := by
  have hitems := h.items name
  rw [Collected.find?_result h.ordered]
  cases hfound : Mapping.find? name c.indexed with
  | none =>
      rw [hfound] at hitems
      refine .direct (h.direct name) fun p hp i sub v hsends => ?_
      obtain ⟨_, hmem⟩ := (hitems.index i).2 ⟨p, hp, sub, v, hsends⟩
      cases hmem
  | some items =>
      rw [hfound] at hitems
      exact .items (h.direct name) hitems fun hnil => h.items_ne name (hnil ▸ hfound)

theorem LastValue.mem_of_mem {last : Option Value} {after : Mapping Value}
    (h : LastValue head name parameters last after) (hp : p ∈ after) : p ∈ parameters := by
  cases h with
  | none => exact hp
  | some => exact List.mem_append_right _ (List.mem_cons_of_mem _ hp)

/-- A name stands for something exactly if something is sent to it. -/
theorem Means.isSome_iff {v : Option Value} (h : Means head name parameters v) :
    v.isSome = true ↔ ∃ p ∈ parameters, ∃ place w, Sends head name place p w := by
  cases h with
  | direct hdirect hitem =>
      cases hdirect with
      | value hlast hentry =>
          cases hlast with
          | none hvalue =>
              refine iff_of_false nofun ?_
              rintro ⟨p, hp, place, w, hsends⟩
              cases place with
              | value => exact hvalue p hp w hsends
              | entry sub => exact hentry p hp sub w hsends
              | item index sub => exact hitem p hp index sub w hsends
          | some hp => exact iff_of_true rfl ⟨_, by simp, _, _, hp⟩
      | entries hlast hentry =>
          obtain ⟨p, hp, sub, w, hsends⟩ := hentry
          exact iff_of_true rfl ⟨p, hlast.mem_of_mem hp, _, w, hsends⟩
  | items _ hitems hne =>
      obtain ⟨⟨index, entries⟩, hmem⟩ := List.exists_mem_of_ne_nil _ hne
      obtain ⟨p, hp, sub, w, hsends⟩ := (hitems.index index).1 ⟨entries, hmem⟩
      exact iff_of_true rfl ⟨p, hp, _, w, hsends⟩

/-- What is read from parameters, in whatever forms and whatever order they send to the same names,
is under each name what that name stands for; and there is something under a name exactly if a
parameter sends something to it. -/
theorem filters_means {settings : Settings} {param : Option String} {m : Mapping Value}
    (hsent : ∀ p ∈ parameters, ∃ s, LastText p.2 s)
    (h : (filters settings parameters param).result = .ok m) :
    (Mapping.keys m).Nodup ∧
    (∀ name, name ∈ Mapping.keys m ↔
      ∃ p ∈ parameters, ∃ place v, Sends (headOf settings param) name place p v) ∧
    ∀ name, Means (headOf settings param) name parameters (Mapping.find? name m) := by
  obtain ⟨as, hread, rfl⟩ := result_filters_eq_ok_iff.1 h
  have hstands : Stands (headOf settings param) parameters (Collected.assignAll {} as) :=
    (stands_empty _).assignAll hsent hread
  refine ⟨Collected.nodup_keys_result hstands.ordered, fun name => ?_, hstands.means⟩
  rw [← (hstands.means name).isSome_iff, Mapping.mem_keys_iff, Option.isSome_iff_exists]

end Runs

/-- Parameters that send a value and entries to one name, and entries to an index that is written in
two ways. -/
def contradictory : Mapping Value :=
  [("filter[a][x]", .text "1"), ("filter[a]", .text "2"), ("filter[a][10][x]", .text "3"),
    ("filter[a][y]\n", .list [.text "4", .text ""]), ("filter[a][2][x]", .text "5"),
    ("filter[a][02][x]", .text "6"), ("page", .text "7")]

/-- The entry that comes before the value is lost, and so is the value. -/
theorem filters_means_contradictory :
    (filters (.ofProject .null) contradictory none).result =
      .ok [("a", .list [.mapping [("y", .null)], .mapping [("x", .text "6")],
        .mapping [("x", .text "3")]])] ∧
    Means (headOf (.ofProject .null) none) "a" contradictory
      (some (.list [.mapping [("y", .null)], .mapping [("x", .text "6")],
        .mapping [("x", .text "3")]])) ∧
    ¬ ∃ p ∈ contradictory, ∃ place v,
      Sends (headOf (.ofProject .null) none) "page" place p v := by
  have hresult : (filters (.ofProject .null) contradictory none).result =
      .ok [("a", .list [.mapping [("y", .null)], .mapping [("x", .text "6")],
        .mapping [("x", .text "3")]])] := by rfl
  have hsent : ∀ p ∈ contradictory, ∃ s, LastText p.2 s := by
    simp only [contradictory, List.forall_mem_cons]
    exact ⟨⟨_, .only _⟩, ⟨_, .only _⟩, ⟨_, .only _⟩, ⟨_, .last ["4"] ""⟩, ⟨_, .only _⟩,
      ⟨_, .only _⟩, ⟨_, .only _⟩, List.forall_mem_nil _⟩
  obtain ⟨_, hkeys, hmeans⟩ := filters_means hsent hresult
  exact ⟨hresult, hmeans "a", fun hsends => absurd ((hkeys "page").2 hsends) (by decide)⟩

/-- What is sent to the empty name is passed over. -/
theorem filters_nameless :
    (filters (.ofProject .null) (ofQuery "filter[]=x") none).result = .ok [] ∧
      ofQuery "filter[]=x" = [(BracketKey.write ⟨"filter", [""]⟩, .text "x")] ∧
      headOf (.ofProject .null) none = .text "filter" :=
  ⟨rfl, rfl, rfl⟩

end RowFilter.Parameters
