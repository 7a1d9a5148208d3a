import RowFilter.Proofs.Exists

/-!
Relation tables as a whole. In a schema whose models do not build on one another every member of a
model goes by a name of its own, and whatever is a relation finds its target. Then the table of a
model has exactly the relations that its members are: those of its own references and links, under
their names, but for links that the other side must not see; and those of the references and links
of other models, under their accessors, unless they are hidden.
-/

namespace RowFilter

/-- Whether the field is a column, a reference that joins no model to one that it builds on, or
links, or refers to rows of any model. -/
def Field.isPlain (f : Field) : Bool :=
  match f.kind with
  | .column .. | .links .. | .genericReference => true
  | .reference _ _ _ parentLink => !parentLink
  | .genericLinks _ | .composite .. => false

def Member.entryName : Member → String
  | .forward _ f => f.name
  | .reverse source f _ => source.accessor f

namespace Schema

variable {schema : Schema} {m source target : Model} {f : Field} {x : Member} {r : Relation}
  {name : String} {table : RelationTable}

/-- Whether a host accepts a schema in which no model builds on another. -/
structure Standalone (schema : Schema) : Prop where
  coherent : schema.Coherent
  alone : ∀ m ∈ schema.models, m.lineage = [m.key] ∧ m.isProxy = false
  fields : ∀ m ∈ schema.models, ∀ f ∈ m.fields, f.isPlain = true
  /-- Every reference and all links lead to a model, and references to a field of it. -/
  targets : ∀ m ∈ schema.models, ∀ f ∈ m.ownFields, f.isRelation = true →
    ∃ target ∈ schema.linked? m f, f.isLinks = false →
      (schema.targetField m target f).toOption.isSome = true
  /-- Neither fields nor accessors clash with one another. -/
  names : ∀ m ∈ schema.models, ((schema.members m).map Member.entryName).Nodup
  accessors : ∀ m ∈ schema.models, ∀ f ∈ m.ownFields, m.hidesBack f = false →
    m.accessor f ≠ "" ∧ isHiddenName (m.accessor f) = false

def added? (schema : Schema) (m : Model) (x : Member) : Option (String × Relation) :=
  (schema.relationOf m x).result.toOption.join.map fun r => (r.name, r)

theorem result_collectRelations {start : RelationTable} {members : List Member}
    (h : ∀ x ∈ members, ∃ made, (schema.relationOf m x).result = .ok made) :
    (schema.collectRelations m start members).result =
      .ok (Mapping.update start (members.filterMap (schema.added? m))) := by
  induction members generalizing start with
  | nil => rfl
  | cons x rest ih =>
      obtain ⟨⟨made, hmade⟩, hrest⟩ := List.forall_mem_cons.1 h
      rw [collectRelations, Outcome.bind_of_ok hmade]
      cases made with
      | none =>
          have hadded : schema.added? m x = none := by rw [added?, hmade]; rfl
          rw [List.filterMap_cons_none hadded]
          exact ih hrest
      | some made =>
          have hadded : schema.added? m x = some (made.name, made) := by rw [added?, hmade]; rfl
          rw [List.filterMap_cons_some hadded]
          exact ih hrest

theorem added?_eq_some_iff {entry : String × Relation} : schema.added? m x = some entry ↔
    (schema.relationOf m x).result = .ok (some entry.2) ∧ entry.1 = entry.2.name := by
  obtain ⟨name, r⟩ := entry
  rw [added?, Option.map_eq_some_iff]
  constructor
  · rintro ⟨made, hmade, heq⟩
    obtain ⟨rfl, rfl⟩ := Prod.mk.inj heq
    exact ⟨eq_ok_of_toOption (Option.join_eq_some_iff.1 hmade), rfl⟩
  · rintro ⟨hmade, hname⟩
    refine ⟨r, ?_, Prod.ext hname.symm rfl⟩
    rw [hmade]
    rfl

theorem mem_fields_of_mem_ownFields (hf : f ∈ m.ownFields) : f ∈ m.fields := by
  rcases List.mem_append.1 hf with hf | hf
  · exact (List.mem_filter.1 hf).1
  · exact (List.mem_filter.1 hf).1

theorem name_of_relationOf (h : (schema.relationOf m x).result = .ok (some r)) :
    r.name = x.entryName := by
  cases x with
  | forward owner f =>
      obtain ⟨target, _, hrelation⟩ := forwardRelation_of_relationOf h
      exact (of_forwardRelation hrelation).1
  | reverse source f target => exact (of_reverseRelation h).1

theorem keys_added_sublist (members : List Member) :
    (Mapping.keys (members.filterMap (schema.added? m))).Sublist
      (members.map Member.entryName) := by
  induction members with
  | nil => exact .slnil
  | cons x rest ih =>
      cases hadded : schema.added? m x with
      | none =>
          rw [List.filterMap_cons_none hadded]
          exact ih.cons _
      | some entry =>
          obtain ⟨hr, hname⟩ := added?_eq_some_iff.1 hadded
          rw [List.filterMap_cons_some hadded, List.map_cons, ← name_of_relationOf hr, ← hname]
          exact ih.cons_cons _

section Standalone

variable (h : schema.Standalone) (hm : m ∈ schema.models)

include h hm

theorem Standalone.lineage_eq : schema.lineage m = [m] := by
  simp [lineage, (h.alone m hm).1]

theorem Standalone.concrete_eq : m.concrete = m.key :=
  h.coherent.concrete_key m hm (h.alone m hm).2

theorem Standalone.eq_of_concrete (htarget : target ∈ schema.models)
    (hconcrete : target.concrete = m.concrete) : target = m := by
  rw [h.concrete_eq hm, h.concrete_eq htarget] at hconcrete
  have hfound := h.coherent.find_key target htarget
  rw [hconcrete, h.coherent.find_key m hm] at hfound
  exact (Option.some.inj hfound).symm

theorem Standalone.isParentLink_eq_false (hf : f ∈ m.ownFields) : f.isParentLink = false := by
  have hplain := h.fields m hm f (mem_fields_of_mem_ownFields hf)
  unfold Field.isPlain at hplain
  unfold Field.isParentLink
  split <;> simp_all

/-- The members of a model are the visible links of other models and its own fields. -/
theorem Standalone.mem_members_iff : x ∈ schema.members m ↔
    (∃ source ∈ schema.models, ∃ f ∈ source.ownFields, schema.linked? source f = some m ∧
        source.hidesBack f = false ∧ x = .reverse source f m) ∨
      (∃ f ∈ m.ownFields, x = .forward m f) ∨
        ∃ f ∈ m.fields, f.isGeneric = true ∧ x = .forward m f := by
  rw [members, h.lineage_eq hm, List.flatMap_singleton, (h.alone m hm).2, List.append_assoc,
    List.mem_append, List.mem_append]
  refine or_congr ?_ (or_congr ?_ ?_)
  · rw [if_neg Bool.false_ne_true, List.mem_filter, mem_linksTo_iff]
    constructor
    · rintro ⟨⟨source, hsource, f, hf, target, hlinked, hconcrete, rfl⟩, hseen⟩
      have htarget := mem_of_linked? hsource hlinked
      obtain rfl := h.eq_of_concrete hm htarget hconcrete
      refine ⟨source, hsource, f, hf, hlinked, ?_, rfl⟩
      simpa [Member.isHidden] using (Bool.and_eq_true_iff.1 hseen).1
    · rintro ⟨source, hsource, f, hf, hlinked, hvisible, rfl⟩
      refine ⟨⟨source, hsource, f, hf, m, hlinked, rfl, rfl⟩, ?_⟩
      simp [Member.isHidden, Member.isListedFor, hvisible, h.isParentLink_eq_false hsource hf]
  · simp [List.mem_map, eq_comm]
  · rw [List.mem_map]
    constructor
    · rintro ⟨f, hf, rfl⟩
      obtain ⟨hf, hgeneric⟩ := List.mem_filter.1 hf
      exact ⟨f, hf, hgeneric, rfl⟩
    · rintro ⟨f, hf, hgeneric, rfl⟩
      exact ⟨f, List.mem_filter.2 ⟨hf, hgeneric⟩, rfl⟩

end Standalone

/-- Whether a field is a relation of its own model: links that the other side must not see are
not. -/
def IsForward (m : Model) (f : Field) : Prop :=
  f ∈ m.ownFields ∧ f.isRelation = true ∧ (f.isLinks = true → m.hidesBack f = false)

/-- Whether a field of another model is a relation of a model, seen from there. -/
def IsBackward (schema : Schema) (m source : Model) (f : Field) : Prop :=
  source ∈ schema.models ∧ f ∈ source.ownFields ∧ schema.linked? source f = some m ∧
    source.hidesBack f = false

theorem isRelation_of_linked? (hlinked : schema.linked? m f = some target) :
    f.isRelation = true := by
  unfold Field.isRelation
  split
  · next hkind =>
    rw [linked?, Field.target?, hkind] at hlinked
    cases hlinked
  · rfl

theorem relationOf_forward (hlinked : schema.linked? m f = some target)
    (hkeyed : (Member.forward m f).isKeyed = true) :
    (schema.relationOf m (.forward m f)).result = schema.forwardRelation m target f := by
  have hrelation := isRelation_of_linked? hlinked
  rw [linked?] at hlinked
  simp only [relationOf, hrelation, Bool.not_true, Bool.false_eq_true, if_false, hlinked]
  split
  · rfl
  · rfl
  · next hreference hlinks =>
    unfold Member.isKeyed Field.hasColumn Field.isLinks at hkeyed
    unfold Field.isRelation at hrelation
    split at hrelation
    · cases hrelation
    · split at hkeyed <;> simp_all

section Standalone

variable (h : schema.Standalone) (hm : m ∈ schema.models)

include h hm

theorem Standalone.isKeyed (hf : f ∈ m.ownFields) :
    f.hasColumn = true ∨ f.isLinks = true := by
  have hplain := h.fields m hm f (mem_fields_of_mem_ownFields hf)
  have hown : f.isLocal = true ∨ f.isLinks = true := by
    rcases List.mem_append.1 hf with hf | hf
    · exact .inl (List.mem_filter.1 hf).2
    · exact .inr (List.mem_filter.1 hf).2
  unfold Field.isPlain at hplain
  unfold Field.hasColumn
  unfold Field.isLocal Field.isLinks at hown
  unfold Field.isLinks
  cases hkind : f.kind <;> simp_all

/-- A field of a model fails in nothing, and is among its relations or nothing. -/
theorem Standalone.relationOf_own (hf : f ∈ m.ownFields) :
    IsForward m f ∧ (∃ r, (schema.relationOf m (.forward m f)).result = .ok (some r)) ∨
      ¬ IsForward m f ∧ (schema.relationOf m (.forward m f)).result = .ok none := by
  cases hrelation : f.isRelation with
  | false =>
      refine .inr ⟨fun hforward => ?_, ?_⟩
      · rw [hforward.2.1] at hrelation
        cases hrelation
      · simp [relationOf, hrelation]
  | true =>
      obtain ⟨target, hlinked, hfield⟩ := h.targets m hm f hf hrelation
      rw [relationOf_forward hlinked (Bool.or_eq_true_iff.2 (h.isKeyed hm hf)), forwardRelation]
      cases hlinks : f.isLinks with
      | true =>
          cases hvisible : m.hidesBack f with
          | true => exact .inr ⟨fun hforward => by simpa [hvisible] using hforward.2.2 hlinks, rfl⟩
          | false => exact .inl ⟨⟨hf, hrelation, fun _ => hvisible⟩, _, rfl⟩
      | false =>
          refine .inl ⟨⟨hf, hrelation, fun hlinks' => by simp [hlinks'] at hlinks⟩, ?_⟩
          obtain ⟨field, hfield⟩ := Option.isSome_iff_exists.1 (hfield hlinks)
          rw [eq_ok_of_toOption hfield]
          exact ⟨_, rfl⟩

omit hm in
theorem Standalone.relationOf_seen (hback : schema.IsBackward m source f) :
    ∃ r, (schema.relationOf m (.reverse source f m)).result = .ok (some r) := by
  obtain ⟨hsource, hf, hlinked, hvisible⟩ := hback
  obtain ⟨hne, hseen⟩ := h.accessors source hsource f hf hvisible
  rw [relationOf, Outcome.result_ofExcept, reverseRelation]
  dsimp only
  rw [if_neg (by simp [hne, hseen])]
  cases hlinks : f.isLinks with
  | true => exact ⟨_, rfl⟩
  | false =>
      have hrelation := isRelation_of_linked? hlinked
      obtain ⟨target, hlinked', hfield⟩ := h.targets source hsource f hf hrelation
      obtain rfl := Option.some.inj (hlinked.symm.trans hlinked')
      obtain ⟨field, hfield⟩ := Option.isSome_iff_exists.1 (hfield hlinks)
      rw [eq_ok_of_toOption hfield]
      exact ⟨_, rfl⟩

theorem Standalone.relationOf_generic (hf : f ∈ m.fields) (hgeneric : f.isGeneric = true) :
    (schema.relationOf m (.forward m f)).result = .ok none := by
  have hplain := h.fields m hm f hf
  unfold Field.isPlain at hplain
  unfold Field.isGeneric at hgeneric
  have hkind : f.kind = .genericReference := by cases hkind : f.kind <;> simp_all
  simp [relationOf, Field.isRelation, Field.target?, hkind]
  rfl

/-- The relations of a model under names are those that its members make, and no member fails. -/
theorem Standalone.exists_relationTable : ∃ table, (schema.relationTable m).result = .ok table ∧
    ∀ name r, Mapping.find? name table = some r ↔ ∃ x, schema.Makes m x r ∧ x.entryName = name := by
  have hmade : ∀ x ∈ schema.members m, ∃ made, (schema.relationOf m x).result = .ok made := by
    intro x hx
    rcases (h.mem_members_iff hm).1 hx with
      ⟨source, hsource, f, hf, hlinked, hvisible, rfl⟩ | ⟨f, hf, rfl⟩ | ⟨f, hf, hgeneric, rfl⟩
    · obtain ⟨r, hr⟩ := h.relationOf_seen ⟨hsource, hf, hlinked, hvisible⟩
      exact ⟨some r, hr⟩
    · rcases h.relationOf_own hm hf with ⟨_, r, hr⟩ | ⟨_, hr⟩
      · exact ⟨some r, hr⟩
      · exact ⟨none, hr⟩
    · exact ⟨none, h.relationOf_generic hm hf hgeneric⟩
  refine ⟨_, result_collectRelations hmade, fun name r => ?_⟩
  -- distinct members have distinct names, so no relation takes the place of another
  have hkeys : (Mapping.keys ((schema.members m).filterMap (schema.added? m))).Nodup :=
    (h.names m hm).sublist (keys_added_sublist (schema.members m))
  rw [Mapping.find?_update hkeys, Mapping.find?_nil, Option.or_none,
    Mapping.find?_eq_some_iff hkeys, List.mem_filterMap]
  simp only [added?_eq_some_iff]
  constructor
  · rintro ⟨x, hx, hr, hname⟩
    exact ⟨x, ⟨hx, hr⟩, (name_of_relationOf hr).symm.trans hname.symm⟩
  · rintro ⟨x, ⟨hx, hr⟩, rfl⟩
    exact ⟨x, hx, hr, (name_of_relationOf hr).symm⟩

/-- The relations of a model are those of its own references and links, but for links that the other
side must not see, and those of visible references and links of other models, and no others. -/
theorem Standalone.relationTable_complete :
    ∃ table, (schema.relationTable m).result = .ok table ∧
      (∀ f, IsForward m f → ∃ r target, Mapping.find? f.name table = some r ∧
        schema.Makes m (.forward m f) r ∧ schema.linked? m f = some target ∧
          r.related = target.key ∧ r.kind = f.relationKind) ∧
      (∀ source f, schema.IsBackward m source f →
        ∃ r, Mapping.find? (source.accessor f) table = some r ∧
          schema.Makes m (.reverse source f m) r ∧ r.related = source.key ∧
            r.kind = f.relationKind.dual) ∧
      ∀ name r, Mapping.find? name table = some r →
        (∃ f, IsForward m f ∧ name = f.name) ∨
          ∃ source f, schema.IsBackward m source f ∧ name = source.accessor f := by
  obtain ⟨table, htable, hfind⟩ := h.exists_relationTable hm
  refine ⟨table, htable, fun f hforward => ?_, fun source f hback => ?_, fun name r hr => ?_⟩
  · have hmem := (h.mem_members_iff hm).2 (.inr (.inl ⟨f, hforward.1, rfl⟩))
    rcases h.relationOf_own hm hforward.1 with ⟨_, r, hr⟩ | ⟨hnot, _⟩
    · obtain ⟨target, hlinked, hrelation⟩ := forwardRelation_of_relationOf hr
      obtain ⟨_, hrelated, _, hkind⟩ := of_forwardRelation hrelation
      exact ⟨r, target, (hfind _ _).2 ⟨_, ⟨hmem, hr⟩, rfl⟩, ⟨hmem, hr⟩, hlinked, hrelated, hkind⟩
    · exact absurd hforward hnot
  · obtain ⟨hsource, hf, hlinked, hvisible⟩ := id hback
    have hmem := (h.mem_members_iff hm).2 (.inl ⟨source, hsource, f, hf, hlinked, hvisible, rfl⟩)
    obtain ⟨r, hr⟩ := h.relationOf_seen hback
    obtain ⟨_, hrelated, _, hkind⟩ := of_reverseRelation hr
    exact ⟨r, (hfind _ _).2 ⟨_, ⟨hmem, hr⟩, rfl⟩, ⟨hmem, hr⟩, hrelated, hkind⟩
  · obtain ⟨x, ⟨hmem, hmade⟩, rfl⟩ := (hfind name r).1 hr
    rcases (h.mem_members_iff hm).1 hmem with
      ⟨source, hsource, f, hf, hlinked, hvisible, rfl⟩ | ⟨f, hf, rfl⟩ | ⟨f, hf, hgeneric, rfl⟩
    · exact .inr ⟨source, f, ⟨hsource, hf, hlinked, hvisible⟩, rfl⟩
    · rcases h.relationOf_own hm hf with ⟨hforward, _⟩ | ⟨_, hnone⟩
      · exact .inl ⟨f, hforward, rfl⟩
      · rw [hnone] at hmade
        cases hmade
    · rw [h.relationOf_generic hm hf hgeneric] at hmade
      cases hmade

end Standalone

end Schema

end RowFilter
