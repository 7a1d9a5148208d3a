import Mathlib.Data.List.Induction
import Mathlib.Data.List.Nodup
import RowFilter.Filter.Registry
import RowFilter.Proofs.Coherence

/-!
Registrations. A registry keeps the first filter that is registered under each key, in the order in
which the keys come up: to register another one under a key that is taken fails and changes nothing,
and no other call changes anything. So what a registry has can be read off all filters that were
ever given to it, those that it refused among them. One call keeps this true, and from it any calls
in a row do; making a registry of filters is registering them up to the first clash of keys.
-/

namespace RowFilter

inductive RegistryCall where
  | register (f : Filter)
  | get (key : String)
  | apply (q : Query) (incoming : Value)
  | isSingular (incoming : Value)

inductive RegistryReply where
  | filter (f : Option Filter)
  | query (q : Query)
  | singular (b : Bool)

namespace RegistryCall

def perform (schema : Schema) (settings : Settings) :
    RegistryCall → FilterRegistry → Outcome RegistryReply × FilterRegistry
  | register f, registry =>
    match registry.register f with
    | .ok next => (pure (.filter (some f)), next)
    | .error fault => (.fail fault, registry)
  | get key, registry => (pure (.filter (registry.get? key)), registry)
  | apply q incoming, registry =>
    (.query <$> registry.apply schema settings q incoming, registry)
  | isSingular incoming, registry => (pure (.singular (registry.isSingular incoming)), registry)

/-- The registry after several calls. What fails does not keep the next call from being made. -/
def run (schema : Schema) (settings : Settings) :
    List RegistryCall → FilterRegistry → FilterRegistry
  | [], registry => registry
  | c :: calls, registry => run schema settings calls (c.perform schema settings registry).2

def given? : RegistryCall → Option Filter
  | register f => some f
  | _ => none

end RegistryCall

theorem eraseDups_concat (keys : List String) (key : String) :
    (keys ++ [key]).eraseDups =
      if key ∈ keys then keys.eraseDups else keys.eraseDups ++ [key] := by
  rw [List.eraseDups_append]
  split_ifs with h <;> simp [List.removeAll, List.eraseDups_cons, h]

namespace FilterRegistry

/-- Whether a registry has, of the filters given to it, the first under each key, in the order in
which the keys come up among them. -/
structure HasFirsts (registry : FilterRegistry) (given : List Filter) : Prop where
  nodup : registry.keys.Nodup
  keys : registry.keys = (given.map Filter.key).eraseDups
  get? : ∀ key, registry.get? key = given.find? (·.key == key)

variable {registry : FilterRegistry} {given filters before : List Filter} {f : Filter}
  {key : String} {fault : Fault}

/-! ### One filter -/

theorem register_of_mem (h : f.key ∈ registry.keys) :
    registry.register f = .error (.duplicateKey f.key) := by
  rw [register, if_pos (contains_iff.2 h)]

theorem register_of_not_mem (h : f.key ∉ registry.keys) :
    registry.register f = .ok ⟨registry.filters ++ [f]⟩ := by
  refine register_eq_ok_iff.2 ⟨?_, rfl⟩
  rw [← Bool.not_eq_true, contains_iff]
  exact h

theorem get?_eq_none_iff : registry.get? key = none ↔ key ∉ registry.keys := by
  rw [← contains_iff, contains, Bool.not_eq_true, Option.isSome_eq_false_iff,
    Option.isNone_iff_eq_none]

theorem get?_of_mem (h : (filters.map Filter.key).Nodup) (hf : f ∈ filters) :
    get? ⟨filters⟩ f.key = some f := by
  obtain ⟨found, hfound⟩ : ∃ found, get? ⟨filters⟩ f.key = some found := by
    rw [← Option.ne_none_iff_exists', Ne, get?_eq_none_iff, not_not]
    exact List.mem_map_of_mem hf
  have hkey := key_of_get?_eq_some hfound
  rw [hfound, List.inj_on_of_nodup_map h (List.mem_of_find?_eq_some hfound) hf hkey]

theorem map_get?_keys (h : registry.keys.Nodup) :
    registry.keys.map registry.get? = registry.filters.map some := by
  rw [keys, List.map_map]
  refine List.map_congr_left fun f hf => ?_
  exact get?_of_mem h hf

namespace HasFirsts

theorem mem_keys_iff (h : registry.HasFirsts given) :
    key ∈ registry.keys ↔ key ∈ given.map Filter.key := by
  rw [h.keys, List.mem_eraseDups]

theorem of_mem (h : registry.HasFirsts given) (hf : f.key ∈ registry.keys) :
    registry.HasFirsts (given ++ [f]) := by
  have hgiven : f.key ∈ given.map Filter.key := h.mem_keys_iff.1 hf
  refine ⟨h.nodup, ?_, fun key => ?_⟩
  · rw [List.map_append, h.keys]
    exact ((eraseDups_concat _ f.key).trans (if_pos hgiven)).symm
  · rw [List.find?_append, h.get? key]
    cases hfound : given.find? (·.key == key) with
    | some found => rfl
    | none =>
        have hother : f.key ≠ key := by
          rintro rfl
          rw [← h.get?, get?_eq_none_iff] at hfound
          exact hfound hf
        simp [hother]

theorem of_not_mem (h : registry.HasFirsts given) (hf : f.key ∉ registry.keys) :
    HasFirsts ⟨registry.filters ++ [f]⟩ (given ++ [f]) := by
  have hgiven : f.key ∉ given.map Filter.key := fun hmem => hf (h.mem_keys_iff.2 hmem)
  have hkeys : FilterRegistry.keys ⟨registry.filters ++ [f]⟩ = registry.keys ++ [f.key] :=
    keys_of_register (register_of_not_mem hf)
  refine ⟨?_, ?_, fun key => ?_⟩
  · rw [hkeys, ← List.concat_eq_append]
    exact h.nodup.concat hf
  · rw [hkeys, List.map_append, h.keys]
    exact ((eraseDups_concat _ f.key).trans (if_neg hgiven)).symm
  · rw [FilterRegistry.get?, List.find?_append, List.find?_append, ← h.get? key]
    rfl

/-- To register a filter, or to be refused, keeps the first filters of those given. -/
theorem perform (schema : Schema) (settings : Settings) (h : registry.HasFirsts given)
    (c : RegistryCall) :
    (c.perform schema settings registry).2.HasFirsts (given ++ c.given?.toList) := by
  cases c with
  | register f =>
      show HasFirsts _ (given ++ [f])
      by_cases hf : f.key ∈ registry.keys
      · rw [RegistryCall.perform, register_of_mem hf]
        exact h.of_mem hf
      · rw [RegistryCall.perform, register_of_not_mem hf]
        exact h.of_not_mem hf
  | _ =>
      show registry.HasFirsts (given ++ [])
      rwa [List.append_nil]

end HasFirsts

/-! ### Several filters -/

theorem foldlM_register (h : ((before ++ filters).map Filter.key).Nodup) :
    filters.foldlM register ⟨before⟩ = .ok ⟨before ++ filters⟩ := by
  induction filters generalizing before with
  | nil => simp [pure, Except.pure]
  | cons f rest ih =>
      have hnew : f.key ∉ keys ⟨before⟩ := by
        intro hmem
        rw [List.map_append, List.nodup_append] at h
        exact h.2.2 f.key hmem f.key (by simp) rfl
      rw [List.foldlM_cons, register_of_not_mem hnew]
      show rest.foldlM register ⟨before ++ [f]⟩ = _
      rw [ih (by simpa using h), List.append_assoc]
      rfl

theorem ofList_eq_ok (h : (filters.map Filter.key).Nodup) : ofList filters = .ok ⟨filters⟩ :=
  foldlM_register h

/-- Where keys are not distinct, one of them is the first that came up before. -/
theorem exists_clash (h : ¬ (filters.map Filter.key).Nodup) :
    ∃ before f after, filters = before ++ f :: after ∧ (before.map Filter.key).Nodup ∧
      f.key ∈ before.map Filter.key := by
  induction filters using List.reverseRecOn with
  | nil => exact absurd List.nodup_nil h
  | append_singleton filters f ih =>
      by_cases hbefore : (filters.map Filter.key).Nodup
      · refine ⟨filters, f, [], rfl, hbefore, ?_⟩
        by_contra hf
        rw [List.map_append, List.map_singleton, ← List.concat_eq_append] at h
        exact h (hbefore.concat hf)
      · obtain ⟨before, g, after, rfl, hnodup, hg⟩ := ih hbefore
        exact ⟨before, g, after ++ [f], by simp, hnodup, hg⟩

/-- The first filter whose key is taken decides the fault. -/
theorem ofList_of_clash {after : List Filter} (hbefore : (before.map Filter.key).Nodup)
    (hf : f.key ∈ before.map Filter.key) :
    ofList (before ++ f :: after) = .error (.duplicateKey f.key) := by
  have hstart : before.foldlM register empty = .ok ⟨before⟩ := ofList_eq_ok hbefore
  have hclash : register ⟨before⟩ f = .error (.duplicateKey f.key) := register_of_mem hf
  rw [ofList, List.foldlM_append, hstart]
  show (f :: after).foldlM register ⟨before⟩ = _
  rw [List.foldlM_cons, hclash]
  rfl

theorem ofList_eq_error_iff : ofList filters = .error fault ↔
    ∃ before f after, filters = before ++ f :: after ∧ (before.map Filter.key).Nodup ∧
      f.key ∈ before.map Filter.key ∧ fault = .duplicateKey f.key := by
  constructor
  · intro h
    have hclash : ¬ (filters.map Filter.key).Nodup := by
      intro hnodup
      rw [ofList_eq_ok hnodup] at h
      cases h
    obtain ⟨before, f, after, rfl, hbefore, hf⟩ := exists_clash hclash
    rw [ofList_of_clash hbefore hf] at h
    exact ⟨before, f, after, rfl, hbefore, hf, (Except.error.inj h).symm⟩
  · rintro ⟨before, f, after, rfl, hbefore, hf, rfl⟩
    exact ofList_of_clash hbefore hf

theorem exists_ofList_eq_error_iff :
    (∃ fault, ofList filters = .error fault) ↔ ¬ (filters.map Filter.key).Nodup := by
  constructor
  · rintro ⟨fault, h⟩ hnodup
    rw [ofList_eq_ok hnodup] at h
    cases h
  · intro h
    obtain ⟨before, f, after, rfl, hbefore, hf⟩ := exists_clash h
    exact ⟨_, ofList_of_clash hbefore hf⟩

theorem hasFirsts_empty : HasFirsts empty [] :=
  ⟨List.nodup_nil, rfl, fun _ => rfl⟩

theorem hasFirsts_of_nodup (h : (filters.map Filter.key).Nodup) : HasFirsts ⟨filters⟩ filters := by
  induction filters using List.reverseRecOn with
  | nil => exact hasFirsts_empty
  | append_singleton filters f ih =>
      rw [List.map_append, List.nodup_append] at h
      have hf : f.key ∉ keys ⟨filters⟩ := by
        intro hmem
        exact h.2.2 f.key hmem f.key (by simp) rfl
      exact (ih h.1).of_not_mem hf

end FilterRegistry

namespace RegistryCall

open FilterRegistry

variable {schema : Schema} {settings : Settings} {registry : FilterRegistry}
  {given initial : List Filter}

/-- After several calls a registry has the first filters of those that it had and those that the
calls gave to it. -/
theorem hasFirsts_run (h : registry.HasFirsts given) (calls : List RegistryCall) :
    (run schema settings calls registry).HasFirsts (given ++ calls.filterMap given?) := by
  induction calls generalizing registry given with
  | nil =>
      show registry.HasFirsts (given ++ [])
      rwa [List.append_nil]
  | cons c calls ih =>
      have hgiven : given ++ (c :: calls).filterMap given? =
          (given ++ c.given?.toList) ++ calls.filterMap given? := by
        rw [List.append_assoc]
        cases hc : c.given? <;> simp [hc]
      rw [run, hgiven]
      exact ih (h.perform schema settings c)

/-- A registry can be made of filters exactly if no two of them share a key, and else the first one
whose key is taken decides the fault. Whatever the registry is asked from then on, its keys are
those of all filters given to it, each where it first came up; under a key it finds the first filter
given with this key; and it has as many filters as keys, in the same order. To register a filter
whose key came up before fails and changes nothing, and any other filter goes to the end. -/
theorem run_keepsFirst (schema : Schema) (settings : Settings)
    (h : (initial.map Filter.key).Nodup) :
    (∀ filters, (∃ fault, ofList filters = .error fault) ↔ ¬ (filters.map Filter.key).Nodup) ∧
    (∀ filters fault, ofList filters = .error fault ↔
      ∃ before f after, filters = before ++ f :: after ∧ (before.map Filter.key).Nodup ∧
        f.key ∈ before.map Filter.key ∧ fault = .duplicateKey f.key) ∧
    ∃ start, ofList initial = .ok start ∧ ∀ calls reached,
      run schema settings calls start = reached →
      ∀ given, initial ++ calls.filterMap given? = given →
        reached.keys.Nodup ∧ reached.keys = (given.map Filter.key).eraseDups ∧
        reached.keys.map reached.get? = reached.filters.map some ∧
        reached.size = reached.keys.length ∧
        (∀ key, reached.get? key = given.find? (·.key == key)) ∧
        ∀ f,
          (f.key ∈ given.map Filter.key → (register f).perform schema settings reached =
            (.fail (.duplicateKey f.key), reached)) ∧
          (f.key ∉ given.map Filter.key → (register f).perform schema settings reached =
            (pure (.filter (some f)), ⟨reached.filters ++ [f]⟩)) := by
  refine ⟨fun filters => exists_ofList_eq_error_iff, fun filters fault => ofList_eq_error_iff,
    ⟨initial⟩, ofList_eq_ok h, ?_⟩
  rintro calls reached hreached given rfl
  have hfirsts : reached.HasFirsts (initial ++ calls.filterMap given?) := by
    rw [← hreached]
    exact hasFirsts_run (hasFirsts_of_nodup h) calls
  refine ⟨hfirsts.nodup, hfirsts.keys, map_get?_keys hfirsts.nodup, ?_, hfirsts.get?, fun f => ?_⟩
  · exact (List.length_map _).symm
  · rw [← hfirsts.mem_keys_iff]
    constructor
    · intro hf
      rw [perform, register_of_mem hf]
    · intro hf
      rw [perform, register_of_not_mem hf]

end RegistryCall

namespace Blog

def byNumber : Filter :=
  { name := "number", column := "id", owner := none }

def byReference : Filter :=
  { byNumber with column := "author_id" }

def byWriting : Filter :=
  { name := "writing", column := "author.name", owner := none }

def bookings : List RegistryCall :=
  [.register byReference, .apply (.all post) (.mapping [("pages", .null)]), .register byWriting,
    .isSingular .null, .register byReference, .get "number"]

end Blog

open Blog in
theorem RegistryCall.run_keepsFirst_blog :
    ([byNumber].map Filter.key).Nodup ∧
    ∃ start, FilterRegistry.ofList [byNumber] = .ok start ∧
      (run schema (.ofProject .null) bookings start).keys = ["number", "writing"] ∧
      (run schema (.ofProject .null) bookings start).get? "number" = some byNumber ∧
      (register byReference).perform schema (.ofProject .null)
          (run schema (.ofProject .null) bookings start) =
        (.fail (.duplicateKey "number"), run schema (.ofProject .null) bookings start) := by
  have hkeys : ([byNumber].map Filter.key).Nodup := List.nodup_singleton _
  obtain ⟨_, _, start, hstart, hrun⟩ := run_keepsFirst schema (.ofProject .null) hkeys
  obtain ⟨_, hreached, _, _, hget, hregister⟩ := hrun bookings _ rfl _ rfl
  refine ⟨hkeys, start, hstart, hreached, hget "number", ?_⟩
  exact (hregister byReference).1 (List.mem_of_elem_eq_true rfl)

end RowFilter
