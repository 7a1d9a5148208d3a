import RowFilter.Proofs.Spellings

/-!
Holders of labels. A registry looks up an entity by a label alone, even where it is asked for that
of a model. So what it has for a model is the entity of the model that was registered last under
their label, the holder of the label, and this need not be the model that is asked for. A text is
put in lower case as a whole before it is looked up, the app included, but a model is kept under its
app as it is spelled. So a text that means a model finds the entity of the model exactly if lower
case makes it the label of the model.
-/

namespace RowFilter

namespace Text

/-- Lower case keeps the app of a label and the dot after it exactly if the app is in lower case. -/
theorem lower_label_eq_iff {app name : String} (h : 'Σ' ∉ (app ++ "." ++ name).toList) :
    lower (app ++ "." ++ name) = app ++ "." ++ lower name ↔ lower app = app := by
  have hhead : 'Σ' ∉ (app ++ ".").toList := by
    rw [String.toList_append] at h
    exact fun hmem => h (List.mem_append_left _ hmem)
  rw [lower_append h, lower_append hhead, ← String.toList_inj, ← String.toList_inj]
  have hdot : lower "." = "." := by decide
  simp [hdot]

end Text

theorem Schema.exists_of_modelOfLabel {schema : Schema} {m : Model} {s : String}
    (h : schema.modelOfLabel s = .ok m) :
    ∃ name, s = m.app ++ "." ++ name ∧ Text.lower name = m.lowerName := by
  unfold modelOfLabel at h
  split at h
  · next app name hparts =>
    split at h
    · cases h
    · split at h
      · next found hfound =>
        obtain rfl := Except.ok.inj h
        have hlike := List.find?_some hfound
        simp only [Bool.and_eq_true, beq_iff_eq] at hlike
        obtain ⟨⟨_, rfl⟩, hname⟩ := hlike
        exact ⟨name, (Text.pieces_dot_eq_pair_iff.1 hparts).1, hname.symm⟩
      · cases h
  · cases h

namespace EntityEvent

def holderAfter (label : String) (holder? : Option Model) : EntityEvent → Option Model
  | cleared => none
  | registered m => if m.label = label then some m else holder?

/-- The model that was registered last under a label since the registry was cleared. -/
def holder? (label : String) (events : List EntityEvent) : Option Model :=
  events.foldl (holderAfter label) none

end EntityEvent

namespace EntityRegistry

variable {schema : Schema} {registry : EntityRegistry} {label : String} {holder? : Option Model}

/-- Whether a registry has under a label the entity of the model that holds it, if any does. -/
structure HeldBy (schema : Schema) (registry : EntityRegistry) (label : String)
    (holder? : Option Model) : Prop where
  mem : ∀ m ∈ holder?, m ∈ schema.models
  model : (Mapping.find? label registry.entities).map (·.model) = holder?.map (·.key)

variable {m : Model} {e : Entity} {s : String}

theorem HeldBy.new (schema : Schema) (number : Nat) (label : String) :
    HeldBy schema { number } label none :=
  ⟨nofun, rfl⟩

/-- What is found for a model is of this model exactly if no other model holds the label. -/
theorem HeldBy.forall_model_iff (hkeys : ∀ m ∈ schema.models, schema.find? m.key = some m)
    (hm : m ∈ schema.models) (h : registry.HeldBy schema m.label holder?) :
    (∀ e, registry.getModel? m = some e → e.model = m.key) ↔
      ∀ other, holder? = some other → other = m := by
  have hmodel := h.model
  constructor
  · rintro hall other rfl
    obtain ⟨e, he, hkey⟩ := Option.map_eq_some_iff.1 hmodel
    have hsame : other.key = m.key := hkey.symm.trans (hall e he)
    have hfound := hkeys other (h.mem other rfl)
    rw [hsame, hkeys m hm] at hfound
    exact (Option.some.inj hfound).symm
  · intro hall e he
    rw [getModel?] at he
    rw [he, Option.map_some] at hmodel
    obtain ⟨other, hother, hkey⟩ := Option.map_eq_some_iff.1 hmodel.symm
    rw [← hkey, hall other hother]

theorem Sound.label_eq (h : registry.Sound schema)
    (he : Mapping.find? label registry.entities = some e) : e.label = label := by
  obtain ⟨_, m, _, hlabel, hmade⟩ := h.made label e he
  obtain ⟨table, _, heq⟩ := result_buildEntity_eq_ok_iff.1 hmade
  rw [heq, ← hlabel]

/-- The entity of a model is found under a text exactly if lower case makes it the label. -/
theorem Sound.getLabel?_eq_some_iff (h : registry.Sound schema)
    (he : registry.getModel? m = some e) :
    registry.getLabel? s = some e ↔ Text.lower s = m.label := by
  constructor
  · intro hfound
    rw [← h.label_eq hfound, h.label_eq he]
  · intro hlower
    rw [getLabel?, hlower]
    exact he

end EntityRegistry

namespace EntityCall

open EntityRegistry

variable {schema : Schema} {registry next : EntityRegistry} {c : EntityCall}
  {calls : List EntityCall} {label : String} {holder? : Option Model}
  {event? : Option EntityEvent} {m : Model} {e : Entity} {s : String}

theorem Does.heldBy (h : Does schema registry c event? next) (hc : c.IsOn schema)
    (hheld : registry.HeldBy schema label holder?) :
    next.HeldBy schema label (event?.toList.foldl (EntityEvent.holderAfter label) holder?) := by
  cases h with
  | nothing => exact hheld
  | clears => exact ⟨nofun, rfl⟩
  | finds m e _ hasked he hkey =>
      show registry.HeldBy schema label (if m.label = label then some m else holder?)
      split
      · next hlabel =>
        rw [getModel?, hlabel] at he
        refine ⟨fun other hother => ?_, ?_⟩
        · exact Option.some.inj hother ▸ mem_of_registers? hc hasked
        · rw [he, Option.map_some, Option.map_some, hkey]
      · exact hheld
  | adds m e _ hasked _ he =>
      obtain ⟨table, _, rfl⟩ := result_buildEntity_eq_ok_iff.1 he
      show HeldBy schema _ label (if m.label = label then some m else holder?)
      split
      · next hlabel =>
        refine ⟨fun other hother => ?_, ?_⟩
        · exact Option.some.inj hother ▸ mem_of_registers? hc hasked
        · rw [find?_add, if_pos hlabel]
          rfl
      · next hlabel =>
        refine ⟨hheld.mem, ?_⟩
        rw [find?_add, if_neg hlabel]
        exact hheld.model

theorem heldBy_run (hcalls : ∀ c ∈ calls, c.IsOn schema)
    (h : registry.HeldBy schema label holder?) :
    (run schema calls registry).HeldBy schema label
      ((events schema calls registry).foldl (EntityEvent.holderAfter label) holder?) := by
  induction calls generalizing registry holder? with
  | nil => exact h
  | cons c calls ih =>
      obtain ⟨hc, hcalls⟩ := List.forall_mem_cons.1 hcalls
      rw [run, events, List.foldl_append]
      exact ih hcalls ((c.does schema registry).heldBy hc h)

/-- After any calls, what a registry has for a model is of the model that was registered last under
the label since the registry was cleared, so it is of this very model exactly if no other model
holds the label. A text that means a model finds the entity that the registry has for the model
exactly if lower case makes it the label of the model; without a capital sigma, exactly if the app
of the model is in lower case. -/
theorem model_found_run (hkeys : ∀ m ∈ schema.models, schema.find? m.key = some m) (number : Nat)
    (hcalls : ∀ c ∈ calls, c.IsOn schema) :
    (∀ m ∈ schema.models,
      ((run schema calls { number }).getModel? m).map (·.model) =
          (EntityEvent.holder? m.label (events schema calls { number })).map (·.key) ∧
        ((∀ e, (run schema calls { number }).getModel? m = some e → e.model = m.key) ↔
          ∀ other, EntityEvent.holder? m.label (events schema calls { number }) = some other →
            other = m)) ∧
    ∀ m s e, schema.modelOfLabel s = .ok m →
      (run schema calls { number }).getModel? m = some e →
        ((run schema calls { number }).getLabel? s = some e ↔ Text.lower s = m.label) ∧
          ('Σ' ∉ s.toList →
            ((run schema calls { number }).getLabel? s = some e ↔ Text.lower m.app = m.app)) := by
  have hsound : (run schema calls { number }).Sound schema :=
    sound_run (.new schema number) hcalls
  have hheld (label : String) : (run schema calls { number }).HeldBy schema label
      (EntityEvent.holder? label (events schema calls { number })) :=
    heldBy_run hcalls (.new schema number label)
  generalize run schema calls { number } = reached at *
  refine ⟨fun m hm => ⟨(hheld m.label).model, (hheld m.label).forall_model_iff hkeys hm⟩,
    fun m s e hmeant he => ?_⟩
  have hiff := hsound.getLabel?_eq_some_iff (s := s) he
  refine ⟨hiff, fun hsigma => hiff.trans ?_⟩
  obtain ⟨name, rfl, hname⟩ := Schema.exists_of_modelOfLabel hmeant
  rw [Model.label, ← hname]
  exact Text.lower_label_eq_iff hsigma

end EntityCall

namespace Blog

def reader : Model :=
  { key := "Press.Reader", app := "Press", name := "Reader", table := "readers"
    fields := [{ name := "id", kind := .column .integer "AutoField", isKey := true }]
    lineage := ["Press.Reader"], concrete := "Press.Reader" }

def press : Schema := { models := [author, double, reader], apps := ["blog", "Press"] }

theorem find?_key_press : ∀ m ∈ press.models, press.find? m.key = some m := by
  decide +kernel

end Blog

open Blog in
/-- After both were registered, the label of two models is that of the second, and a text in any
case finds it. -/
theorem EntityCall.model_found_run_press :
    (∀ m ∈ press.models, press.find? m.key = some m) ∧
      (∀ c ∈ [register author, register double], c.IsOn press) ∧
      (∃ e, (run press [register author, register double] { number := 0 }).getModel? double =
          some e ∧ e.model = double.key ∧
            (run press [register author, register double] { number := 0 }).getLabel?
              "blog.AUTHOR" = some e) ∧
      ¬ ∀ e, (run press [register author, register double] { number := 0 }).getModel? author =
          some e → e.model = author.key := by
  have hauthor : author ∈ press.models := by decide +kernel
  have hdouble : double ∈ press.models := by decide +kernel
  have hcalls : ∀ c ∈ [register author, register double], c.IsOn press := by
    simp [IsOn, hauthor, hdouble]
  obtain ⟨hmodels, hlabels⟩ := model_found_run find?_key_press 0 hcalls
  have hevents : EntityCall.events press [register author, register double] { number := 0 } =
      [.registered author, .registered double] := by decide +kernel
  rw [hevents] at hmodels
  obtain ⟨hfound, _⟩ := hmodels double hdouble
  obtain ⟨_, hauthors⟩ := hmodels author hauthor
  obtain ⟨e, he, hkey⟩ := Option.map_eq_some_iff.1 (hfound.trans (by rfl : _ = some double.key))
  refine ⟨find?_key_press, hcalls, ⟨e, he, hkey, ?_⟩, fun hall => ?_⟩
  · exact (hlabels author "blog.AUTHOR" e (by rfl) he).1.2 (by decide)
  · have hsame : double = author := hauthors.1 hall double (by rfl)
    exact absurd hsame (by decide +kernel)

open Blog in
/-- A model that was never registered is found where another one has its label, and one that was
registered is not found under its own name if its app has a capital. -/
theorem EntityCall.model_found_run_clash :
    (∃ e, (run press [register author] { number := 0 }).getModel? double = some e ∧
      e.model ≠ double.key) ∧
    (∃ e, (run press [register reader] { number := 0 }).getModel? reader = some e ∧
      e.model = reader.key) ∧
    press.modelOfLabel "Press.Reader" = .ok reader ∧
      (run press [register reader] { number := 0 }).getLabel? "Press.Reader" = none :=
  ⟨⟨_, by rfl, by decide⟩, ⟨_, by rfl, by rfl⟩, by rfl, by rfl⟩

end RowFilter
