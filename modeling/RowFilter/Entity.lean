import RowFilter.Relation

/-!
Entities and their registry. An entity is a model together with its relation table, made once and
kept under the model's label. Asking the registry for a model that it has under that label gives the
very same entity again; a different model of the same label takes its place. An entity's identity
says which registry made it, and as which of its entities.
-/

namespace RowFilter

/-- What tells one entity from another that equals it. -/
structure EntityId where
  registry : Nat
  serial : Nat
  deriving DecidableEq, Repr

/-- A model, by its key, with its label, its table and its relations. -/
structure Entity where
  id : EntityId
  model : String
  label : String
  storageName : String
  relations : RelationTable
  deriving DecidableEq, Repr

def Entity.relation? (e : Entity) (name : String) : Option Relation :=
  Mapping.find? name e.relations

def Schema.buildEntity (schema : Schema) (id : EntityId) (m : Model) : Outcome Entity := do
  let relations ← schema.relationTable m
  return { id, model := m.key, label := m.label, storageName := m.table, relations }

inductive OwnerRef where
  | model (m : Model)
  | label (s : String)
  | entity (e : Entity)

/-- The model that a label means: the app exactly, the name in any case. -/
def Schema.modelOfLabel (schema : Schema) (label : String) : Except Fault Model :=
  match Text.pieces '.' label with
  | [app, name] =>
    if !schema.apps.contains app then .error (.unknownApp app)
    else match schema.named? app name with
      | some m => .ok m
      | none => .error (.unknownModel app name)
  | parts => .error (.twoParts parts.length)

/-- Entities under their labels, the number of the registry and that of entities made by it. -/
structure EntityRegistry where
  number : Nat := 0
  issued : Nat := 0
  entities : Mapping Entity := []
  deriving Repr

/-- An action on a registry, which keeps what it did to the registry also when it fails. -/
def Registering (α : Type) : Type :=
  EntityRegistry → Outcome α × EntityRegistry

namespace Registering

variable {α β : Type}

def andThen (x : Registering α) (f : α → Registering β) : Registering β := fun registry =>
  match x registry with
  | (⟨log, .ok a⟩, registry) =>
    let (y, registry) := f a registry
    (⟨log ++ y.log, y.result⟩, registry)
  | (⟨log, .error e⟩, registry) => (⟨log, .error e⟩, registry)

instance : Monad Registering where
  pure a := fun registry => (pure a, registry)
  bind := andThen

def lift (x : Outcome α) : Registering α := fun registry =>
  (x, registry)

instance : MonadLift Outcome Registering where
  monadLift := lift

def run (x : Registering α) (registry : EntityRegistry) : Outcome α × EntityRegistry :=
  x registry

end Registering

namespace EntityRegistry

def getLabel? (registry : EntityRegistry) (label : String) : Option Entity :=
  Mapping.find? (Text.lower label) registry.entities

def getModel? (registry : EntityRegistry) (m : Model) : Option Entity :=
  Mapping.find? m.label registry.entities

def size (registry : EntityRegistry) : Nat :=
  registry.entities.length

def clear (registry : EntityRegistry) : EntityRegistry :=
  { registry with entities := [] }

def registered (e : Entity) : Outcome Unit :=
  let names := if e.relations.isEmpty then "-" else ", ".intercalate (Mapping.keys e.relations)
  .debug s!"Registered entity {e.label} with relations: {names}"

def add (registry : EntityRegistry) (e : Entity) : EntityRegistry :=
  { registry with
    issued := registry.issued + 1
    entities := Mapping.insert e.label e registry.entities }

def register (schema : Schema) (m : Model) : Registering Entity := fun registry =>
  let build : Outcome Entity × EntityRegistry :=
    match schema.buildEntity ⟨registry.number, registry.issued⟩ m with
    | ⟨log, .ok e⟩ => (⟨log ++ (registered e).log, .ok e⟩, registry.add e)
    | ⟨log, .error fault⟩ => (⟨log, .error fault⟩, registry)
  match registry.getModel? m with
  | some e => if e.model = m.key then (pure e, registry) else build
  | none => build

/-- The entity that a reference means: an entity itself, and that of a model or label, which is
registered if need be. -/
def resolve (schema : Schema) : OwnerRef → Registering Entity
  | .entity e => pure e
  | .model m => register schema m
  | .label s => fun registry =>
    match registry.getLabel? s with
    | some e => (pure e, registry)
    | none =>
      let labelled : Registering Entity := do
        register schema (← Outcome.ofExcept (schema.modelOfLabel s))
      labelled registry

def resolve? (schema : Schema) : Option OwnerRef → Registering (Option Entity)
  | none => pure none
  | some ref => some <$> resolve schema ref

end EntityRegistry

end RowFilter
