import RowFilter.Proofs.Coherence
import RowFilter.Proofs.Registries

/-!
Lifetimes of entities. A registry is asked for entities and emptied in any order, and some of what
it is asked for fails. All that this does to the registry are two kinds of events: it is cleared, or
a model is registered in it, which is also how an owner is resolved. So what the registry has under
a label, and whether a model still has the entity that it once had, can be read off the events. An
entity that was forgotten never comes back: another one made for the same model has a later serial
number.
-/

namespace RowFilter

inductive EntityCall where
  | register (m : Model)
  | resolve (ref : Option OwnerRef)
  | getModel (m : Model)
  | getLabel (s : String)
  | clear

inductive EntityEvent where
  | cleared
  | registered (m : Model)
  deriving DecidableEq

namespace EntityEvent

def Replaces (m : Model) : EntityEvent → Prop
  | cleared => True
  | registered other => other.label = m.label ∧ other.key ≠ m.key

/-- Whether a model of a label is registered, and nothing cleared since. -/
def Leaves (label : String) (events : List EntityEvent) : Prop :=
  ∃ before m later, events = before ++ registered m :: later ∧ cleared ∉ later ∧ m.label = label

variable {label : String} {event : EntityEvent} {events : List EntityEvent}

theorem not_leaves_nil : ¬ Leaves label [] := by
  rintro ⟨before, m, later, h, -⟩
  simp at h

theorem leaves_cons : Leaves label (event :: events) ↔
    Leaves label events ∨ cleared ∉ events ∧ ∃ m, event = registered m ∧ m.label = label := by
  constructor
  · rintro ⟨before, m, later, h, hlater, hlabel⟩
    cases before with
    | nil =>
        obtain ⟨rfl, rfl⟩ := List.cons.inj h
        exact .inr ⟨hlater, m, rfl, hlabel⟩
    | cons first before =>
        obtain ⟨-, rfl⟩ := List.cons.inj h
        exact .inl ⟨before, m, later, rfl, hlater, hlabel⟩
  · rintro (⟨before, m, later, rfl, hlater, hlabel⟩ | ⟨hlater, m, rfl, hlabel⟩)
    · exact ⟨event :: before, m, later, rfl, hlater, hlabel⟩
    · exact ⟨[], m, events, rfl, hlater, hlabel⟩

end EntityEvent

namespace EntityCall

variable {schema : Schema} {registry : EntityRegistry} {c : EntityCall} {m : Model} {l : String}

/-- A call ends with an entity, with none or in a fault. -/
def perform (schema : Schema) : EntityCall → Registering (Option Entity)
  | register m => some <$> EntityRegistry.register schema m
  | resolve ref => EntityRegistry.resolve? schema ref
  | getModel m => fun registry => (pure (registry.getModel? m), registry)
  | getLabel s => fun registry => (pure (registry.getLabel? s), registry)
  | clear => fun registry => (pure none, registry.clear)

def after (schema : Schema) (c : EntityCall) (registry : EntityRegistry) : EntityRegistry :=
  (c.perform schema registry).2

def IsOn (schema : Schema) : EntityCall → Prop
  | register m | resolve (some (.model m)) => m ∈ schema.models
  | _ => True

def IsFor (m : Model) : EntityCall → Prop
  | register other | resolve (some (.model other)) => other = m
  | _ => False

/-- The model that a call registers. A label that the registry knows is not looked up again. -/
def registers? (schema : Schema) (registry : EntityRegistry) : EntityCall → Option Model
  | register m | resolve (some (.model m)) => some m
  | resolve (some (.label s)) =>
    if (registry.getLabel? s).isSome then none else (schema.modelOfLabel s).toOption
  | _ => none

/-- What a call does to a registry; a call that fails does nothing. -/
def event? (schema : Schema) (registry : EntityRegistry) (c : EntityCall) : Option EntityEvent :=
  if c matches clear then some .cleared
  else if (c.perform schema registry).1.result.toOption.isSome then
    (c.registers? schema registry).map .registered
  else none

def run (schema : Schema) : List EntityCall → EntityRegistry → EntityRegistry
  | [], registry => registry
  | c :: calls, registry => run schema calls (c.after schema registry)

def events (schema : Schema) : List EntityCall → EntityRegistry → List EntityEvent
  | [], _ => []
  | c :: calls, registry =>
    (c.event? schema registry).toList ++ events schema calls (c.after schema registry)

end EntityCall

namespace Registering

variable {α β : Type}

theorem map_apply (f : α → β) (x : Registering α) (registry : EntityRegistry) :
    ((f <$> x) registry).1.result = f <$> (x registry).1.result ∧
      ((f <$> x) registry).2 = (x registry).2 := by
  show (x.andThen (pure ∘ f) registry).1.result = _ ∧ (x.andThen (pure ∘ f) registry).2 = _
  rw [andThen]
  generalize x registry = ended
  obtain ⟨⟨log, a | a⟩, rest⟩ := ended
  · exact ⟨rfl, rfl⟩
  · exact ⟨rfl, rfl⟩

end Registering

namespace EntityRegistry

variable {schema : Schema} {registry : EntityRegistry} {m : Model} {e : Entity} {label : String}

theorem result_buildEntity_eq_ok_iff {id : EntityId} :
    (schema.buildEntity id m).result = .ok e ↔
      ∃ table, (schema.relationTable m).result = .ok table ∧
        e = ⟨id, m.key, m.label, m.table, table⟩ := by
  rw [Schema.buildEntity, Outcome.result_bind_eq_ok_iff]
  simp [eq_comm]

/-- Registering a model finds its entity, or makes one if the registry has none of this model. -/
theorem register_cases (schema : Schema) (registry : EntityRegistry) (m : Model) :
    (∃ fault, (schema.relationTable m).result = .error fault ∧
        (register schema m registry).1.result = .error fault ∧
          (register schema m registry).2 = registry) ∨
      ∃ e, (register schema m registry).1.result = .ok e ∧
        (registry.getModel? m = some e ∧ e.model = m.key ∧
            (register schema m registry).2 = registry ∨
          (∀ d, registry.getModel? m = some d → d.model ≠ m.key) ∧
            (schema.buildEntity ⟨registry.number, registry.issued⟩ m).result = .ok e ∧
              (register schema m registry).2 = registry.add e) := by
  by_cases hknown : ∃ e, registry.getModel? m = some e ∧ e.model = m.key
  · obtain ⟨e, he, hkey⟩ := hknown
    rw [register_of_getModel? he hkey]
    exact .inr ⟨e, rfl, .inl ⟨he, hkey, rfl⟩⟩
  · have hnew : ∀ d, registry.getModel? m = some d → d.model ≠ m.key :=
      fun d hd hkey => hknown ⟨d, hd, hkey⟩
    cases htable : (schema.relationTable m).result with
    | error fault =>
        rw [register_of_error hnew htable]
        exact .inl ⟨fault, rfl, rfl, rfl⟩
    | ok table =>
        obtain ⟨log, e, hmade, he⟩ := register_of_ok hnew htable
        rw [hmade]
        exact .inr ⟨e, rfl, .inr ⟨hnew, result_buildEntity_eq_ok_iff.2 ⟨table, htable, he⟩, rfl⟩⟩

theorem find?_add (label : String) : Mapping.find? label (registry.add e).entities =
    if e.label = label then some e else Mapping.find? label registry.entities :=
  Mapping.find?_insert e.label e registry.entities

end EntityRegistry

namespace EntityCall

variable {schema : Schema} {registry : EntityRegistry} {c : EntityCall} {m : Model}
  {label : String}

theorem perform_of_registers? (h : c.registers? schema registry = some m) :
    (c.perform schema registry).1.result =
        some <$> (EntityRegistry.register schema m registry).1.result ∧
      c.after schema registry = (EntityRegistry.register schema m registry).2 ∧ c ≠ clear := by
  cases c with
  | register other =>
      obtain rfl := Option.some.inj h
      obtain ⟨hresult, hafter⟩ :=
        Registering.map_apply some (EntityRegistry.register schema other) registry
      exact ⟨hresult, hafter, nofun⟩
  | resolve ref =>
      obtain ⟨ref, rfl⟩ : ∃ known, ref = some known := by
        cases ref with
        | none => cases h
        | some known => exact ⟨known, rfl⟩
      -- an owner is registered as the model that it is or names
      have hmodel : EntityRegistry.resolve schema ref registry =
          EntityRegistry.register schema m registry := by
        cases ref with
        | model other =>
            obtain rfl := Option.some.inj h
            rfl
        | entity e => cases h
        | label s =>
            rw [registers?] at h
            split at h
            · cases h
            · next hnew =>
              rw [EntityRegistry.resolve_label_of_none (by simpa using hnew)]
              cases hnamed : schema.modelOfLabel s with
              | error fault => rw [hnamed] at h; cases h
              | ok other =>
                  rw [hnamed] at h
                  obtain rfl := Option.some.inj h
                  rfl
      obtain ⟨hresult, hafter⟩ :=
        Registering.map_apply some (EntityRegistry.resolve schema ref) registry
      rw [hmodel] at hresult hafter
      exact ⟨hresult, hafter, nofun⟩
  | _ => cases h

theorem after_of_registers?_eq_none (h : c.registers? schema registry = none) (hc : c ≠ clear) :
    c.after schema registry = registry := by
  cases c with
  | register other => cases h
  | getModel other => rfl
  | getLabel s => rfl
  | clear => exact absurd rfl hc
  | resolve ref =>
      cases ref with
      | none => rfl
      | some ref =>
          obtain ⟨_, hafter⟩ :=
            Registering.map_apply some (EntityRegistry.resolve schema ref) registry
          refine hafter.trans ?_
          cases ref with
          | model other => cases h
          | entity e => rfl
          | label s =>
              cases hknown : registry.getLabel? s with
              | some e => rw [EntityRegistry.resolve_label_of_some hknown]
              | none =>
                  rw [EntityRegistry.resolve_label_of_none hknown]
                  cases hnamed : schema.modelOfLabel s with
                  | error fault => rfl
                  | ok other => simp [registers?, hknown, hnamed, Except.toOption] at h

/-- Everything that a call can do to a registry: the event that it is, and the registry after it. -/
inductive Does (schema : Schema) (registry : EntityRegistry) (c : EntityCall) :
    Option EntityEvent → EntityRegistry → Prop where
  /-- The call fails, or it asks for what the registry has. -/
  | nothing (hc : c ≠ clear) : Does schema registry c none registry
  | clears (hc : c = clear) : Does schema registry c (some .cleared) registry.clear
  /-- The registry has the entity of the model already. -/
  | finds (m : Model) (e : Entity) (hc : c ≠ clear)
      (hasked : c.registers? schema registry = some m) (he : registry.getModel? m = some e)
      (hkey : e.model = m.key) : Does schema registry c (some (.registered m)) registry
  /-- Under the label there is no entity, or that of another model. -/
  | adds (m : Model) (e : Entity) (hc : c ≠ clear)
      (hasked : c.registers? schema registry = some m)
      (hnew : ∀ d, registry.getModel? m = some d → d.model ≠ m.key)
      (he : (schema.buildEntity ⟨registry.number, registry.issued⟩ m).result = .ok e) :
      Does schema registry c (some (.registered m)) (registry.add e)

theorem does (schema : Schema) (registry : EntityRegistry) (c : EntityCall) :
    Does schema registry c (c.event? schema registry) (c.after schema registry) := by
  by_cases hclear : c = clear
  · subst hclear
    exact .clears rfl
  · have hevent : c.event? schema registry =
        if (c.perform schema registry).1.result.toOption.isSome then
          (c.registers? schema registry).map .registered
        else none := by
      cases c with
      | clear => exact absurd rfl hclear
      | _ => rfl
    rw [hevent]
    cases hasked : c.registers? schema registry with
    | none =>
        rw [after_of_registers?_eq_none hasked hclear, Option.map_none, ite_self]
        exact .nothing hclear
    | some m =>
        obtain ⟨hresult, hafter, _⟩ := perform_of_registers? hasked
        rw [hresult, hafter]
        rcases EntityRegistry.register_cases schema registry m with
          ⟨fault, _, hfault, hsame⟩ | ⟨e, hok, ⟨he, hkey, hsame⟩ | ⟨hnew, he, hadded⟩⟩
        · rw [hfault, hsame]
          exact .nothing hclear
        · rw [hok, hsame]
          exact .finds m e hclear hasked he hkey
        · rw [hok, hadded]
          exact .adds m e hclear hasked hnew he

theorem mem_of_registers? (hc : c.IsOn schema) (h : c.registers? schema registry = some m) :
    m ∈ schema.models := by
  unfold registers? at h
  split at h
  · exact Option.some.inj h ▸ hc
  · exact Option.some.inj h ▸ hc
  · split at h
    · cases h
    · next s _ =>
      cases hnamed : schema.modelOfLabel s with
      | error fault => rw [hnamed] at h; cases h
      | ok found =>
          rw [hnamed] at h
          exact Option.some.inj h ▸ EntityRegistry.mem_of_modelOfLabel hnamed
  · cases h

end EntityCall

namespace EntityRegistry

variable {schema : Schema} {registry : EntityRegistry} {m : Model} {e : Entity}

/-- Whether all that a registry has was made of models, under their labels and with its serials. -/
structure Sound (schema : Schema) (registry : EntityRegistry) : Prop where
  keys : (Mapping.keys registry.entities).Nodup
  made : ∀ label e, Mapping.find? label registry.entities = some e →
    e.id.serial < registry.issued ∧
      ∃ m ∈ schema.models, m.label = label ∧ (schema.buildEntity e.id m).result = .ok e

theorem Sound.new (schema : Schema) (number : Nat) : Sound schema { number } where
  keys := List.nodup_nil
  made := nofun

theorem Sound.add (h : registry.Sound schema) (hm : m ∈ schema.models)
    (he : (schema.buildEntity ⟨registry.number, registry.issued⟩ m).result = .ok e) :
    (registry.add e).Sound schema := by
  obtain ⟨table, _, hmade⟩ := result_buildEntity_eq_ok_iff.1 he
  refine ⟨Mapping.nodup_keys_insert e.label e h.keys, fun label found hfound => ?_⟩
  rw [find?_add] at hfound
  split at hfound
  · next hlabel =>
    obtain rfl := Option.some.inj hfound
    rw [hmade] at hlabel
    have hid : e.id = ⟨registry.number, registry.issued⟩ := by rw [hmade]
    rw [hid]
    exact ⟨Nat.lt_succ_self _, m, hm, hlabel, he⟩
  · obtain ⟨hserial, hfrom⟩ := h.made label found hfound
    exact ⟨Nat.lt_succ_of_lt hserial, hfrom⟩

/-- What is found for a model of the schema under its label and has its key was made of it. -/
theorem Sound.result_buildEntity (hkeys : ∀ m ∈ schema.models, schema.find? m.key = some m)
    (h : registry.Sound schema) (hm : m ∈ schema.models) (he : registry.getModel? m = some e)
    (hkey : e.model = m.key) : (schema.buildEntity e.id m).result = .ok e := by
  obtain ⟨_, other, hother, _, hmade⟩ := h.made m.label e he
  obtain ⟨table, _, heq⟩ := result_buildEntity_eq_ok_iff.1 hmade
  have hsame : other.key = m.key := by
    rw [← hkey, heq]
  have hfound := hkeys other hother
  rw [hsame, hkeys m hm] at hfound
  exact Option.some.inj hfound ▸ hmade

/-- Whether a model's entity, if the registry has one, is not older than a serial number. -/
def NewSince (serial : Nat) (m : Model) (registry : EntityRegistry) : Prop :=
  serial ≤ registry.issued ∧
    ∀ e, registry.getModel? m = some e → e.model = m.key → serial ≤ e.id.serial

end EntityRegistry

namespace EntityCall.Does

open EntityRegistry

variable {schema : Schema} {registry next : EntityRegistry} {c : EntityCall} {m : Model}
  {e : Entity} {label : String} {serial : Nat} {event : EntityEvent} {event? : Option EntityEvent}

theorem sound (h : Does schema registry c event? next) (hsound : registry.Sound schema)
    (hc : c.IsOn schema) : next.Sound schema := by
  cases h with
  | nothing => exact hsound
  | clears => exact ⟨List.nodup_nil, nofun⟩
  | finds => exact hsound
  | adds m e _ hasked _ he => exact hsound.add (mem_of_registers? hc hasked) he

/-- Nothing but clearing the registry and registering a model of the label changes what is under a
label. -/
theorem find?_eq (h : Does schema registry c event? next) (hc : c ≠ clear)
    (hother : ∀ m, event? = some (.registered m) → m.label ≠ label) :
    Mapping.find? label next.entities = Mapping.find? label registry.entities := by
  cases h with
  | nothing => rfl
  | clears hclear => exact absurd hclear hc
  | finds => rfl
  | adds m e _ _ _ he =>
      obtain ⟨table, _, rfl⟩ := result_buildEntity_eq_ok_iff.1 he
      rw [find?_add, if_neg (hother m rfl)]

theorem mem_keys_iff (h : Does schema registry c event? next) :
    label ∈ Mapping.keys next.entities ↔ c ≠ clear ∧ label ∈ Mapping.keys registry.entities ∨
      ∃ m, event? = some (.registered m) ∧ m.label = label := by
  cases h with
  | nothing hc => simp [hc]
  | clears hc => simp [hc, EntityRegistry.clear]
  | finds m e hc _ he =>
      have hmem : m.label ∈ Mapping.keys registry.entities := Mapping.mem_keys_iff.2 ⟨e, he⟩
      simp only [hc, ne_eq, not_false_eq_true, true_and, Option.some.injEq,
        EntityEvent.registered.injEq, exists_eq_left']
      exact ⟨.inl, fun h => h.elim id (· ▸ hmem)⟩
  | adds m e hc _ _ he =>
      obtain ⟨table, _, rfl⟩ := result_buildEntity_eq_ok_iff.1 he
      rw [Mapping.mem_keys_iff, find?_add, Mapping.mem_keys_iff]
      by_cases hlabel : m.label = label <;> simp [hc, hlabel]

theorem getModel?_eq (h : Does schema registry c event? next) (he : registry.getModel? m = some e)
    (hkey : e.model = m.key) (hkept : ∀ event ∈ event?, ¬ event.Replaces m) :
    next.getModel? m = some e := by
  cases h with
  | nothing => exact he
  | clears => exact absurd trivial (hkept .cleared rfl)
  | finds => exact he
  | adds other d _ _ hnew hd =>
      obtain ⟨table, _, rfl⟩ := result_buildEntity_eq_ok_iff.1 hd
      have hlabel : other.label ≠ m.label := by
        intro hlabel
        refine hkept _ rfl ⟨hlabel, fun hsame => hnew e ?_ (hkey.trans hsame.symm)⟩
        rwa [getModel?, hlabel]
      rw [getModel?, find?_add, if_neg hlabel]
      exact he

theorem issued_le (h : Does schema registry c event? next) : registry.issued ≤ next.issued := by
  cases h with
  | adds => exact Nat.le_succ _
  | _ => exact Nat.le_refl _

theorem newSince (h : Does schema registry c event? next) (hsince : NewSince serial m registry) :
    NewSince serial m next := by
  obtain ⟨hissued, hfound⟩ := hsince
  cases h with
  | nothing => exact ⟨hissued, hfound⟩
  | clears => exact ⟨hissued, nofun⟩
  | finds => exact ⟨hissued, hfound⟩
  | adds other d _ _ _ hd =>
      obtain ⟨table, _, rfl⟩ := result_buildEntity_eq_ok_iff.1 hd
      refine ⟨Nat.le_succ_of_le hissued, fun e he hkey => ?_⟩
      rw [getModel?, find?_add] at he
      split at he
      · rw [← Option.some.inj he]
        exact hissued
      · exact hfound e he hkey

theorem newSince_of_replaces (h : Does schema registry c (some event) next)
    (hreplaces : event.Replaces m) : NewSince registry.issued m next := by
  cases h with
  | clears => exact ⟨Nat.le_refl _, nofun⟩
  | finds other d _ _ hd hsame =>
      obtain ⟨hlabel, hkey⟩ := hreplaces
      refine ⟨Nat.le_refl _, fun e he hm => ?_⟩
      -- the entity that is there is that of the other model
      rw [getModel?, hlabel] at hd
      obtain rfl := Option.some.inj (hd.symm.trans he)
      exact absurd (hsame.symm.trans hm) hkey
  | adds other d _ _ _ hd =>
      obtain ⟨hlabel, hkey⟩ := hreplaces
      obtain ⟨table, _, rfl⟩ := result_buildEntity_eq_ok_iff.1 hd
      refine ⟨Nat.le_succ _, fun e he hm => ?_⟩
      rw [getModel?, find?_add, if_pos hlabel] at he
      rw [← Option.some.inj he] at hm
      exact absurd hm hkey

end EntityCall.Does

namespace EntityCall

variable {schema : Schema} {registry : EntityRegistry} {calls : List EntityCall} {c : EntityCall}
  {m : Model} {e : Entity} {label : String}

theorem sound_run (h : registry.Sound schema) (hcalls : ∀ c ∈ calls, c.IsOn schema) :
    (run schema calls registry).Sound schema := by
  induction calls generalizing registry with
  | nil => exact h
  | cons c calls ih =>
      obtain ⟨hc, hcalls⟩ := List.forall_mem_cons.1 hcalls
      exact ih ((c.does schema registry).sound h hc) hcalls

theorem mem_keys_run : label ∈ Mapping.keys (run schema calls registry).entities ↔
    EntityEvent.Leaves label (events schema calls registry) ∨
      .cleared ∉ events schema calls registry ∧ label ∈ Mapping.keys registry.entities := by
  induction calls generalizing registry with
  | nil => simp [run, events, EntityEvent.not_leaves_nil]
  | cons c calls ih =>
      have hdoes := c.does schema registry
      rw [run, ih, hdoes.mem_keys_iff, events]
      generalize c.event? schema registry = event?, c.after schema registry = next at hdoes
      cases hdoes with
      | nothing hc => simp [hc]
      | clears hc => simp [hc, EntityEvent.leaves_cons]
      | finds m _ hc | adds m _ hc =>
          simp only [Option.toList_some, List.singleton_append, EntityEvent.leaves_cons,
            Option.some.injEq, EntityEvent.registered.injEq, exists_eq_left', List.mem_cons,
            reduceCtorEq, false_or, ne_eq, hc, not_false_eq_true, true_and]
          rw [or_assoc, ← and_or_left, or_comm (a := m.label = label)]

theorem getModel?_run (he : registry.getModel? m = some e) (hkey : e.model = m.key)
    (h : ∀ event ∈ events schema calls registry, ¬ event.Replaces m) :
    (run schema calls registry).getModel? m = some e := by
  induction calls generalizing registry with
  | nil => exact he
  | cons c calls ih =>
      rw [events] at h
      obtain ⟨hfirst, hrest⟩ := List.forall_mem_append.1 h
      refine ih ((c.does schema registry).getModel?_eq he hkey fun event hevent => ?_) hrest
      exact hfirst event (Option.mem_toList.2 hevent)

theorem newSince_run {serial : Nat} (h : EntityRegistry.NewSince serial m registry) :
    EntityRegistry.NewSince serial m (run schema calls registry) := by
  induction calls generalizing registry with
  | nil => exact h
  | cons c calls ih => exact ih ((c.does schema registry).newSince h)

/-- Once it was replaced, a model's entity is newer than all that there was. -/
theorem newSince_run_of_replaces
    (h : ∃ event ∈ events schema calls registry, event.Replaces m) :
    EntityRegistry.NewSince registry.issued m (run schema calls registry) := by
  induction calls generalizing registry with
  | nil =>
      obtain ⟨event, hevent, _⟩ := h
      cases hevent
  | cons c calls ih =>
      obtain ⟨event, hevent, hreplaces⟩ := h
      rw [events] at hevent
      rw [run]
      -- after the first replacement serial numbers only grow
      rcases List.mem_append.1 hevent with hfirst | hrest
      · have hdoes := c.does schema registry
        rw [Option.mem_toList.1 hfirst] at hdoes
        exact newSince_run (hdoes.newSince_of_replaces hreplaces)
      · obtain ⟨hissued, hfound⟩ := ih ⟨event, hrest, hreplaces⟩
        have hgrown := (c.does schema registry).issued_le
        refine ⟨Nat.le_trans hgrown hissued, fun e he hkey => ?_⟩
        exact Nat.le_trans hgrown (hfound e he hkey)

theorem registers?_of_isFor (schema : Schema) (registry : EntityRegistry) (hc : c.IsFor m) :
    c.registers? schema registry = some m := by
  unfold IsFor at hc
  split at hc
  · exact congrArg some hc
  · exact congrArg some hc
  · cases hc

/-- A call for a model fails as the relations of the model do, or ends with an entity of the model
that is kept from then on. -/
theorem perform_isFor (hkeys : ∀ m ∈ schema.models, schema.find? m.key = some m)
    (h : registry.Sound schema) (hm : m ∈ schema.models) (hc : c.IsFor m) :
    (∃ fault, (schema.relationTable m).result = .error fault ∧
        (c.perform schema registry).1.result = .error fault) ∨
      ∃ e, (c.perform schema registry).1.result = .ok (some e) ∧ e.model = m.key ∧
        (schema.buildEntity e.id m).result = .ok e ∧
          (c.after schema registry).getModel? m = some e := by
  obtain ⟨hresult, hafter, _⟩ :=
    perform_of_registers? (registers?_of_isFor schema registry hc)
  rw [hresult, hafter]
  rcases EntityRegistry.register_cases schema registry m with
    ⟨fault, htable, hfault, _⟩ | ⟨e, he, ⟨hfound, hkey, hsame⟩ | ⟨_, hmade, hadded⟩⟩
  · rw [hfault]
    exact .inl ⟨fault, htable, rfl⟩
  · rw [he, hsame]
    exact .inr ⟨e, rfl, hkey, h.result_buildEntity hkeys hm hfound hkey, hfound⟩
  · obtain ⟨table, htable, rfl⟩ := EntityRegistry.result_buildEntity_eq_ok_iff.1 hmade
    rw [he, hadded]
    refine .inr ⟨_, rfl, rfl, hmade, ?_⟩
    rw [EntityRegistry.getModel?, EntityRegistry.find?_add, if_pos rfl]

theorem isOn_of_isFor (hm : m ∈ schema.models) (hc : c.IsFor m) : c.IsOn schema := by
  unfold IsFor at hc
  split at hc
  · exact hc ▸ hm
  · exact hc ▸ hm
  · cases hc

/-- Two calls for a model end with one and the same entity exactly if nothing between them replaces
it. -/
theorem id_eq_iff {first second : EntityCall} {between : List EntityCall} {d : Entity}
    (hkeys : ∀ m ∈ schema.models, schema.find? m.key = some m) (h : registry.Sound schema)
    (hm : m ∈ schema.models) (hfirst : first.IsFor m) (hsecond : second.IsFor m)
    (hbetween : ∀ c ∈ between, c.IsOn schema)
    (he : (first.perform schema registry).1.result = .ok (some e))
    (hd : (second.perform schema
      (run schema between (first.after schema registry))).1.result = .ok (some d)) :
    (d.id = e.id ↔
      ∀ event ∈ events schema between (first.after schema registry), ¬ event.Replaces m) ∧
        (d.id = e.id → d = e) := by
  obtain ⟨_, _, hfault⟩ | ⟨e', he', hkey, hmade, hfound⟩ := perform_isFor hkeys h hm hfirst
  · rw [hfault] at he
    cases he
  obtain rfl := Option.some.inj (Except.ok.inj (he'.symm.trans he))
  have hafter : (first.after schema registry).Sound schema :=
    (first.does schema registry).sound h (isOn_of_isFor hm hfirst)
  generalize first.after schema registry = start at *
  have hlast : (run schema between start).Sound schema := sound_run hafter hbetween
  obtain ⟨_, _, hfault⟩ | ⟨d', hd', hkey', hmade', hfound'⟩ :=
    perform_isFor hkeys hlast hm hsecond
  · rw [hfault] at hd
    cases hd
  obtain rfl := Option.some.inj (Except.ok.inj (hd'.symm.trans hd))
  refine ⟨⟨fun hid => ?_, fun hnone => ?_⟩, fun hid => ?_⟩
  · -- a replacement would make what is found from then on newer
    by_contra hsome
    push Not at hsome
    have hnew := (second.does schema _).newSince (newSince_run_of_replaces hsome)
    have hlater := hnew.2 d' hfound' hkey'
    have hold := (hafter.made m.label e' hfound).1
    rw [hid] at hlater
    exact absurd hlater (Nat.not_le.2 hold)
  · have hstill := getModel?_run hfound hkey hnone
    obtain ⟨hresult, _⟩ := perform_of_registers? (registers?_of_isFor schema _ hsecond)
    rw [EntityRegistry.register_of_getModel? hstill hkey] at hresult
    rw [Option.some.inj (Except.ok.inj (hd'.symm.trans hresult))]
  · -- both were built of one model under one serial number
    rw [hid] at hmade'
    exact Except.ok.inj (hmade'.symm.trans hmade)

/-- After any calls, what a registry has under a label is what is built of a model of this label,
and it has one entity for each label registered since it was last cleared. Any call for a model ends
as building its entity does, and keeps the entity; two of them end with one and the same entity
exactly if nothing between them replaces it. No call but clearing the registry touches other labels
than that of the model that it registers. -/
theorem run_sound (hkeys : ∀ m ∈ schema.models, schema.find? m.key = some m) (number : Nat)
    (hcalls : ∀ c ∈ calls, c.IsOn schema) :
    (∀ label e,
      Mapping.find? label (run schema calls { number }).entities = some e → e.label = label ∧
        ∃ m ∈ schema.models, m.key = e.model ∧ m.label = label ∧
          (schema.buildEntity e.id m).result = .ok e) ∧
    (∃ labels : List String, labels.Nodup ∧
      (run schema calls { number }).size = labels.length ∧
        ∀ label, label ∈ labels ↔ EntityEvent.Leaves label (events schema calls { number })) ∧
    (∀ m ∈ schema.models, ∀ c, IsFor m c →
      (∃ fault, (schema.relationTable m).result = .error fault ∧
          (c.perform schema (run schema calls { number })).1.result = .error fault) ∨
        ∃ e, (c.perform schema (run schema calls { number })).1.result = .ok (some e) ∧
          e.model = m.key ∧ (schema.buildEntity e.id m).result = .ok e ∧
            (c.after schema (run schema calls { number })).getModel? m = some e) ∧
    (∀ m ∈ schema.models, ∀ first second, IsFor m first → IsFor m second →
      ∀ between : List EntityCall, (∀ c ∈ between, c.IsOn schema) → ∀ e d,
        (first.perform schema (run schema calls { number })).1.result = .ok (some e) →
        (second.perform schema (run schema between
          (first.after schema (run schema calls { number })))).1.result = .ok (some d) →
        (d.id = e.id ↔ ∀ event ∈ events schema between
            (first.after schema (run schema calls { number })), ¬ event.Replaces m) ∧
          (d.id = e.id → d = e)) ∧
    ∀ c, c ≠ clear → ∀ label,
      (∀ m, c.event? schema (run schema calls { number }) = some (.registered m) →
        m.label ≠ label) →
      Mapping.find? label (c.after schema (run schema calls { number })).entities =
        Mapping.find? label (run schema calls { number }).entities := by
  have hsound : (run schema calls { number }).Sound schema :=
    sound_run (.new schema number) hcalls
  have hkept (label : String) : label ∈ Mapping.keys (run schema calls { number }).entities ↔
      EntityEvent.Leaves label (events schema calls { number }) ∨
        .cleared ∉ events schema calls { number } ∧ label ∈ Mapping.keys [] := mem_keys_run
  generalize run schema calls { number } = reached at *
  refine ⟨fun label e he => ?_, ⟨Mapping.keys reached.entities, hsound.keys, ?_, fun label => ?_⟩,
    fun m hm c hc => perform_isFor hkeys hsound hm hc, ?_,
    fun c hc label h => (c.does schema reached).find?_eq hc h⟩
  · obtain ⟨_, m, hm, hlabel, hmade⟩ := hsound.made label e he
    obtain ⟨table, _, heq⟩ := EntityRegistry.result_buildEntity_eq_ok_iff.1 hmade
    exact ⟨by rw [heq, ← hlabel], m, hm, by rw [heq], hlabel, hmade⟩
  · exact (List.length_map _).symm
  · simp [hkept]
  · intro m hm first second hfirst hsecond between hbetween e d he hd
    exact id_eq_iff hkeys hsound hm hfirst hsecond hbetween he hd

end EntityCall

namespace Blog

def double : Model :=
  { key := "blog.Author/2", app := "blog", name := "Author", table := "authors"
    fields := [{ name := "id", kind := .column .integer "AutoField", isKey := true }]
    lineage := ["blog.Author/2"], concrete := "blog.Author/2", isListed := false }

def twins : Schema := { models := [author, double], apps := ["blog"] }

def lookups : List EntityCall :=
  [.resolve (some (.label "blog.AUTHOR")), .getLabel "blog.author", .resolve (some (.model author)),
    .clear]

end Blog

/-- Another model of the label takes the place of the authors, who are then made anew. -/
theorem EntityCall.run_sound_twins :
    (∀ m ∈ Blog.twins.models, Blog.twins.find? m.key = some m) ∧
      (∀ c ∈ Blog.lookups, c.IsOn Blog.twins) ∧
      ∃ e d, ((register Blog.author).perform Blog.twins
            (run Blog.twins Blog.lookups { number := 0 })).1.result = .ok (some e) ∧
          ((register Blog.author).perform Blog.twins (run Blog.twins [register Blog.double]
            ((register Blog.author).after Blog.twins
              (run Blog.twins Blog.lookups { number := 0 })))).1.result = .ok (some d) ∧
            d.id ≠ e.id := by
  have hkeys : ∀ m ∈ Blog.twins.models, Blog.twins.find? m.key = some m := by decide +kernel
  have hauthor : Blog.author ∈ Blog.twins.models := List.mem_cons_self
  have hdouble : Blog.double ∈ Blog.twins.models := List.mem_cons_of_mem _ List.mem_cons_self
  have hcalls : ∀ c ∈ Blog.lookups, c.IsOn Blog.twins := by simp [Blog.lookups, IsOn, hauthor]
  have hmore : ∀ c ∈ Blog.lookups ++ [register Blog.author, register Blog.double],
      c.IsOn Blog.twins := by simp [Blog.lookups, IsOn, hauthor, hdouble]
  have htable : (Blog.twins.relationTable Blog.author).result = .ok [] := by rfl
  obtain ⟨_, _, hfirst, htwice, _⟩ := run_sound hkeys 0 hcalls
  obtain ⟨_, _, hsecond, _⟩ := run_sound hkeys 0 hmore
  obtain ⟨_, hfault, _⟩ | ⟨e, he, _⟩ := hfirst Blog.author hauthor (register Blog.author) rfl
  · rw [htable] at hfault
    cases hfault
  obtain ⟨_, hfault, _⟩ | ⟨d, hd, _⟩ := hsecond Blog.author hauthor (register Blog.author) rfl
  · rw [htable] at hfault
    cases hfault
  refine ⟨hkeys, hcalls, e, d, he, hd, fun hid => ?_⟩
  have hevents : EntityCall.events Blog.twins [register Blog.double]
      ((register Blog.author).after Blog.twins (run Blog.twins Blog.lookups { number := 0 })) =
        [.registered Blog.double] := by decide +kernel
  have hkept := (htwice Blog.author hauthor (register Blog.author) (register Blog.author) rfl rfl
    [register Blog.double] (by simp [IsOn, hdouble]) e d he hd).1.1 hid
  rw [hevents] at hkept
  exact hkept _ List.mem_cons_self ⟨by decide +kernel, by decide +kernel⟩

end RowFilter
