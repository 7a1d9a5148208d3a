import RowFilter.Filter.Basic
import RowFilter.Proofs.Mappings
import RowFilter.Query.Step

/-!
Registries of entities as a memory. What a registry holds for a model was made by reading the
relations of that model, so nothing is lost by asking the registry instead: an action that only
registers models of a schema ends in the same way in every registry that came about by registering
such models. The registry of one action is handed on to the next, so this has to be shown of all
that an action leaves behind, too.
-/

namespace RowFilter

structure Entity.IsOf (schema : Schema) (e : Entity) (m : Model) : Prop where
  model : e.model = m.key
  label : e.label = m.label
  relations : (schema.relationTable m).result = .ok e.relations

namespace EntityRegistry

variable {schema : Schema} {registry : EntityRegistry} {m : Model}

def Faithful (schema : Schema) (registry : EntityRegistry) : Prop :=
  ∀ label e, Mapping.find? label registry.entities = some e →
    ∀ m, schema.find? e.model = some m → e.IsOf schema m

/-- The registries that come about by registering models, by themselves or by their labels. -/
inductive Reachable (schema : Schema) : EntityRegistry → Prop
  | new (number : Nat) : Reachable schema { number }
  | clear {registry : EntityRegistry} : Reachable schema registry → Reachable schema registry.clear
  | register {registry : EntityRegistry} {m : Model} : Reachable schema registry →
      m ∈ schema.models → Reachable schema (register schema m registry).2
  | label {registry : EntityRegistry} (s : String) : Reachable schema registry →
      Reachable schema (resolve schema (.label s) registry).2

theorem Faithful.add {e : Entity} (h : registry.Faithful schema)
    (he : ∀ m, schema.find? e.model = some m → e.IsOf schema m) :
    (registry.add e).Faithful schema := by
  intro label found hfound
  rw [EntityRegistry.add, Mapping.find?_insert] at hfound
  split at hfound
  · exact Option.some.inj hfound ▸ he
  · exact h label found hfound

theorem register_of_getModel? {e : Entity} (h : registry.getModel? m = some e)
    (hkey : e.model = m.key) : register schema m registry = (pure e, registry) := by
  simp [register, h, hkey]

theorem register_of_error {fault : Fault}
    (hnew : ∀ e, registry.getModel? m = some e → e.model ≠ m.key)
    (htable : (schema.relationTable m).result = .error fault) :
    register schema m registry = (⟨(schema.relationTable m).log, .error fault⟩, registry) := by
  have hmade : schema.buildEntity ⟨registry.number, registry.issued⟩ m =
      ⟨(schema.relationTable m).log, .error fault⟩ := Outcome.bind_of_error htable _
  rw [register, hmade]
  cases hknown : registry.getModel? m with
  | none => rfl
  | some e => exact if_neg (hnew e hknown)

theorem register_of_ok {table : RelationTable}
    (hnew : ∀ e, registry.getModel? m = some e → e.model ≠ m.key)
    (htable : (schema.relationTable m).result = .ok table) :
    ∃ log e, register schema m registry = (⟨log, .ok e⟩, registry.add e) ∧
      e = ⟨⟨registry.number, registry.issued⟩, m.key, m.label, m.table, table⟩ := by
  have hmade : schema.buildEntity ⟨registry.number, registry.issued⟩ m = _ :=
    Outcome.bind_of_ok htable _
  rw [register, hmade]
  cases hknown : registry.getModel? m with
  | none => exact ⟨_, _, rfl, rfl⟩
  | some e => exact ⟨_, _, if_neg (hnew e hknown), rfl⟩

/-- Registering a model gives its entity, made now or before, and is remembered; it fails only if
the relations of the model cannot be read. -/
theorem Faithful.register (h : registry.Faithful schema) (hm : schema.find? m.key = some m) :
    (∀ e, (EntityRegistry.register schema m registry).1.result = .ok e → e.IsOf schema m) ∧
      (·.relations) <$> (EntityRegistry.register schema m registry).1.result =
        (schema.relationTable m).result ∧
      (EntityRegistry.register schema m registry).2.Faithful schema := by
  by_cases hknown : ∃ e, registry.getModel? m = some e ∧ e.model = m.key
  · obtain ⟨e, he, hkey⟩ := hknown
    have hof : e.IsOf schema m := h _ e he m (hkey ▸ hm)
    rw [register_of_getModel? he hkey]
    refine ⟨fun found hfound => ?_, hof.relations.symm, h⟩
    exact Except.ok.inj hfound ▸ hof
  · have hnew : ∀ e, registry.getModel? m = some e → e.model ≠ m.key :=
      fun e he hkey => hknown ⟨e, he, hkey⟩
    cases htable : (schema.relationTable m).result with
    | error fault =>
        rw [register_of_error hnew htable]
        refine ⟨fun e he => ?_, rfl, h⟩
        cases he
    | ok table =>
        obtain ⟨log, e, hmade, rfl⟩ := register_of_ok hnew htable
        rw [hmade]
        refine ⟨fun found hfound => ?_, rfl, h.add fun found hfound => ?_⟩
        · exact Except.ok.inj hfound ▸ ⟨rfl, rfl, htable⟩
        · obtain rfl := Option.some.inj (hm.symm.trans hfound)
          exact ⟨rfl, rfl, htable⟩

theorem mem_of_modelOfLabel {s : String} (h : schema.modelOfLabel s = .ok m) :
    m ∈ schema.models := by
  unfold Schema.modelOfLabel at h
  split at h
  · split at h
    · cases h
    · split at h
      · next hnamed => exact Except.ok.inj h ▸ List.mem_of_find?_eq_some hnamed
      · cases h
  · cases h

theorem resolve_label_of_some {s : String} {e : Entity} (h : registry.getLabel? s = some e) :
    resolve schema (.label s) registry = (pure e, registry) := by
  simp only [resolve, h]

theorem resolve_label_of_none {s : String} (h : registry.getLabel? s = none) :
    resolve schema (.label s) registry = match schema.modelOfLabel s with
      | .ok m => register schema m registry
      | .error fault => (⟨[], .error fault⟩, registry) := by
  have hlift : (Registering.lift (.ofExcept (schema.modelOfLabel s))) registry =
      (⟨[], schema.modelOfLabel s⟩, registry) := rfl
  simp only [resolve, h]
  show (Registering.lift (.ofExcept (schema.modelOfLabel s))).andThen (register schema) registry = _
  rw [Registering.andThen, hlift]
  cases schema.modelOfLabel s with
  | ok m => rfl
  | error fault => rfl

theorem Reachable.faithful (hkeys : ∀ m ∈ schema.models, schema.find? m.key = some m)
    (h : Reachable schema registry) : registry.Faithful schema := by
  induction h with
  | new number =>
      intro label e he
      cases he
  | clear _ _ =>
      intro label e he
      cases he
  | register _ hm ih => exact (ih.register (hkeys _ hm)).2.2
  | @label registry s _ ih =>
      cases hknown : registry.getLabel? s with
      | some e => rwa [resolve_label_of_some hknown]
      | none =>
          rw [resolve_label_of_none hknown]
          cases hmodel : schema.modelOfLabel s with
          | error fault => exact ih
          | ok m => exact (ih.register (hkeys m (mem_of_modelOfLabel hmodel))).2.2

end EntityRegistry

namespace Registering

variable {α β : Type} {schema : Schema} {x : Registering α} {r : Except Fault α}

/-- Whether an action ends in the same way in every registry that is faithful, and leaves it so. -/
def Settles (schema : Schema) (x : Registering α) (r : Except Fault α) : Prop :=
  ∀ registry, registry.Faithful schema →
    (x registry).1.result = r ∧ (x registry).2.Faithful schema

theorem settles_lift (x : Outcome α) : Settles schema (lift x) x.result :=
  fun _ h => ⟨rfl, h⟩

theorem settles_pure (a : α) : Settles schema (pure a) (.ok a) :=
  fun _ h => ⟨rfl, h⟩

theorem Settles.bind {f : α → Registering β} {g : α → Except Fault β} (hx : Settles schema x r)
    (hf : ∀ a, r = .ok a → Settles schema (f a) (g a)) : Settles schema (x >>= f) (r >>= g) := by
  intro registry hfaithful
  obtain ⟨hresult, hafter⟩ := hx registry hfaithful
  show (x.andThen f registry).1.result = _ ∧ (x.andThen f registry).2.Faithful schema
  rw [andThen]
  cases r with
  | error fault =>
      split
      · next hx => rw [hx] at hresult; cases hresult
      · next hx =>
        rw [hx] at hresult hafter
        cases hresult
        exact ⟨rfl, hafter⟩
  | ok a =>
      split
      · next hx =>
        rw [hx] at hresult hafter
        cases hresult
        exact hf a rfl _ hafter
      · next hx => rw [hx] at hresult; cases hresult

end Registering

namespace RelationRef

variable {schema : Schema} {m : Model}

def relationOn (schema : Schema) (m : Model) : RelationRef → Except Fault Relation
  | relation r => .ok r
  | name s => do
    let table ← (schema.relationTable m).result
    match Mapping.find? s table with
    | some r => return r
    | none => throw (.rejected (.noRelation m.name s))

theorem relationOn_name {table : RelationTable} {s : String} {r : Relation}
    (htable : (schema.relationTable m).result = .ok table)
    (hname : Mapping.find? s table = some r) : (name s).relationOn schema m = .ok r := by
  rw [relationOn, htable]
  dsimp only [bind, Except.bind]
  rw [hname]
  rfl

theorem settles_resolve (hm : schema.find? m.key = some m) (ref : RelationRef) :
    Registering.Settles schema (ref.resolve schema m) (ref.relationOn schema m) := by
  cases ref with
  | relation r => exact Registering.settles_pure r
  | name s =>
      intro registry hfaithful
      obtain ⟨_, htable, hafter⟩ := hfaithful.register hm
      show ((EntityRegistry.register schema m).andThen _ registry).1.result = _ ∧
        ((EntityRegistry.register schema m).andThen _ registry).2.Faithful schema
      rw [relationOn, ← htable, Registering.andThen]
      split
      · next log e after hregister =>
        rw [hregister] at hafter ⊢
        dsimp only [Functor.map, Except.map, bind, Except.bind]
        rw [Entity.relation?]
        cases Mapping.find? s e.relations with
        | some r => exact ⟨rfl, hafter⟩
        | none => exact ⟨rfl, hafter⟩
      · next hregister =>
        rw [hregister] at hafter ⊢
        exact ⟨rfl, hafter⟩

end RelationRef

namespace Filter

/-- Two filters of one name and column that begin it with the same relation do the same. -/
theorem apply_congr_of_relation {schema : Schema} {settings : Settings} {f g : Filter} {q : Query}
    {v w : Value} (hname : g.name = f.name) (hcolumn : g.column = f.column)
    (hrelation : ∀ name column, f.segments = [name, column] → g.relation name = f.relation name)
    (hread : Request.read settings f.name w = Request.read settings f.name v) :
    g.apply schema settings q w = f.apply schema settings q v := by
  have hsegments : g.segments = f.segments := by
    rw [segments, segments, hcolumn]
  have hconditionOf (r : Request) :
      g.conditionOf schema q.model r = f.conditionOf schema q.model r := by
    rw [conditionOf, conditionOf, hsegments, hcolumn]
    split
    · next name column hparts => rw [hrelation name column hparts]
    · rfl
  have hcondition :
      g.condition schema settings q.model w = f.condition schema settings q.model v := by
    rw [condition, condition, hsegments, hname, hread]
    simp only [hconditionOf]
  have happlied (r : Request) : g.appliedRecord r = f.appliedRecord r := by
    rw [appliedRecord, appliedRecord, hname, hcolumn]
  have hrejected (e : FilterError) : g.rejectedRecord e = f.rejectedRecord e := by
    rw [rejectedRecord, rejectedRecord, hname]
  simp only [apply, hcondition, happlied, hrejected]

variable {column : String}

theorem make_model (hcolumn : column ≠ "") (schema : Schema) (name : String) (m : Model)
    (entities : EntityRegistry) :
    (make schema name (some column) (some (.model m)) entities).1.result =
        (fun e => { name, column, owner := some e }) <$>
          (EntityRegistry.register schema m entities).1.result ∧
      (make schema name (some column) (some (.model m)) entities).2 =
        (EntityRegistry.register schema m entities).2 := by
  have hmade : make schema name (some column) (some (.model m)) =
      ((EntityRegistry.register schema m).andThen fun e => pure (some e)).andThen fun owner =>
        pure { name, column, owner } := by
    rw [make]
    · rfl
    · exact hcolumn
  rw [hmade, Registering.andThen, Registering.andThen]
  -- how the model is registered does not matter from here on
  generalize EntityRegistry.register schema m entities = registered
  obtain ⟨⟨log, e | e⟩, after⟩ := registered
  · exact ⟨rfl, rfl⟩
  · exact ⟨rfl, rfl⟩

theorem make_none (hcolumn : column ≠ "") (schema : Schema) (name : String)
    (entities : EntityRegistry) :
    make schema name (some column) none entities =
      (pure { name, column, owner := none }, entities) := by
  have hmade : make schema name (some column) none =
      (pure none : Registering (Option Entity)).andThen fun owner =>
        pure { name, column, owner } := by
    rw [make]
    · rfl
    · exact hcolumn
  rw [hmade]
  rfl

end Filter

end RowFilter
