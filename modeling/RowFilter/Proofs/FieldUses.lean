import RowFilter.Form.FilterSet
import RowFilter.Proofs.Lifetimes

/-!
Uses of a field. The filter of a field is made at the first use that can make it, and kept, so a
field without an owner goes on to filter by the relations of the model that it was first used on.
What a use does can be told without the uses before it: it is what a new field does whose owner is
that model. It is not what a new field does on its own, unless the field has an owner, or was made
on the same model, or does not filter by a relation.
-/

namespace RowFilter

structure FieldUse where
  query : Query
  value : Value

namespace EntityRegistry

variable {schema : Schema} {registry : EntityRegistry} {fault : Fault}

theorem register_of_result_eq_error {m : Model}
    (h : (register schema m registry).1.result = .error fault) :
    (register schema m registry).2 = registry := by
  rcases register_cases schema registry m with ⟨_, _, _, hsame⟩ | ⟨e, he, _⟩
  · exact hsame
  · rw [h] at he
    cases he

theorem resolve_of_result_eq_error {ref : OwnerRef}
    (h : (resolve schema ref registry).1.result = .error fault) :
    (resolve schema ref registry).2 = registry := by
  cases ref with
  | entity e => cases h
  | model m => exact register_of_result_eq_error h
  | label s =>
      cases hknown : registry.getLabel? s with
      | some e => rw [resolve_label_of_some hknown]
      | none =>
          rw [resolve_label_of_none hknown] at h ⊢
          cases hmodel : schema.modelOfLabel s with
          | error fault => rfl
          | ok m =>
              rw [hmodel] at h
              exact register_of_result_eq_error h

end EntityRegistry

/-- The path of a filter's column does not depend on the owner, which is all that is looked up. -/
theorem Filter.make_eq_map (schema : Schema) (name : String) (column : Option String) :
    ∃ path, ∀ ref, make schema name column ref =
      (fun owner => { name, column := path, owner }) <$> EntityRegistry.resolve? schema ref := by
  cases column with
  | none => exact ⟨_, fun _ => rfl⟩
  | some column =>
      by_cases hcolumn : column = ""
      · subst hcolumn
        exact ⟨_, fun _ => rfl⟩
      · refine ⟨column, fun ref => ?_⟩
        rw [make]
        · rfl
        · exact hcolumn

namespace FilterField

variable {schema : Schema} {settings : Settings} {field : FilterField} {registry : EntityRegistry}
  {q : Query} {v : Value} {m : Model} {f : Filter}

def after (schema : Schema) (settings : Settings) :
    List FieldUse → FilterField → EntityRegistry → FilterField × EntityRegistry
  | [], field, registry => (field, registry)
  | u :: uses, field, registry =>
    let used := field.apply schema settings u.query u.value registry
    after schema settings uses used.2.1 used.2.2

/-- What a field makes of a use that comes after others. -/
def applyAfter (schema : Schema) (settings : Settings) (field : FilterField)
    (registry : EntityRegistry) (before : List FieldUse) (u : FieldUse) : Outcome Query :=
  let used := after schema settings before field registry
  (used.1.apply schema settings u.query u.value used.2).1

def makesOn (schema : Schema) (field : FilterField) (registry : EntityRegistry) (u : FieldUse) :
    Bool :=
  !FormPair.isBlank u.value &&
    (field.filter schema u.query.model registry).1.result.toOption.isSome

/-- The model that a field filters by after several uses, if one of them makes the filter. -/
def madeOn? (schema : Schema) (field : FilterField) (registry : EntityRegistry)
    (uses : List FieldUse) : Option Model :=
  (uses.find? (field.makesOn schema registry)).map (·.query.model)

def ownedOn (field : FilterField) (m : Model) : FilterField :=
  { field with owner := some (field.ownerOn m) }

def narrowBy (schema : Schema) (settings : Settings) (field : FilterField) (q : Query) (v : Value)
    (f : Filter) : Except Fault Query :=
  (fun narrowed => if field.isDistinct then narrowed.distinct else narrowed) <$>
    (f.apply schema settings q v).result

/-- On any model a new field makes the same filter but for the owner, and no change but for that. -/
theorem filter_of_new (schema : Schema) (hnew : field.made = none) :
    ∃ path, ∀ m registry, (field.filter schema m registry).1.result =
        (fun e => { name := field.fieldName, column := path, owner := some e }) <$>
          (EntityRegistry.resolve schema (field.ownerOn m) registry).1.result ∧
      (field.filter schema m registry).2 =
        (EntityRegistry.resolve schema (field.ownerOn m) registry).2 := by
  obtain ⟨path, hmake⟩ := Filter.make_eq_map schema field.fieldName (some field.column)
  refine ⟨path, fun m registry => ?_⟩
  rw [filter, hnew]
  dsimp only
  rw [hmake, EntityRegistry.resolve?]
  obtain ⟨hresult, hafter⟩ := Registering.map_apply
    (fun owner => ({ name := field.fieldName, column := path, owner } : Filter))
    (some <$> EntityRegistry.resolve schema (field.ownerOn m)) registry
  obtain ⟨hsome, hsame⟩ := Registering.map_apply some
    (EntityRegistry.resolve schema (field.ownerOn m)) registry
  rw [hresult, hafter, hsome, hsame, ← LawfulFunctor.comp_map]
  exact ⟨rfl, rfl⟩

theorem filter_of_made (h : field.made = some f) (schema : Schema) (m : Model) :
    field.filter schema m = pure f := by
  rw [filter, h]

theorem filter_of_result_eq_error {fault : Fault} (hnew : field.made = none)
    (h : (field.filter schema m registry).1.result = .error fault) :
    (field.filter schema m registry).2 = registry := by
  obtain ⟨path, hmake⟩ := filter_of_new schema hnew
  obtain ⟨hresult, hafter⟩ := hmake m registry
  rw [hafter]
  rw [hresult] at h
  cases hresolve : (EntityRegistry.resolve schema (field.ownerOn m) registry).1.result with
  | ok e =>
      rw [hresolve] at h
      cases h
  | error fault => exact EntityRegistry.resolve_of_result_eq_error hresolve

theorem result_apply : (field.apply schema settings q v registry).1.result =
    if FormPair.isBlank v then .ok q
    else (field.filter schema q.model registry).1.result >>=
      field.narrowBy schema settings q v := by
  rw [apply]
  split
  · rfl
  · rw [Registering.run]
    generalize field.filter schema q.model registry = made
    obtain ⟨⟨log, f | f⟩, rest⟩ := made
    · rfl
    · show ((f.apply schema settings q v >>= fun narrowed => pure _ : Outcome Query).result) = _
      rw [Outcome.result_bind]
      rfl

theorem after_apply_of_made (h : field.made = some f) :
    (field.apply schema settings q v registry).2.1 = field := by
  rw [apply, filter_of_made h]
  split
  · rfl
  · show { field with made := some f } = field
    rw [← h]

/-- The first use that makes the filter of a new field is the only one that changes anything. -/
theorem after_apply_of_new (hnew : field.made = none) :
    (field.makesOn schema registry ⟨q, v⟩ = false ∧
        (field.apply schema settings q v registry).2 = (field, registry)) ∨
      field.makesOn schema registry ⟨q, v⟩ = true ∧
        ∃ f, (field.filter schema q.model registry).1.result = .ok f ∧
          (field.apply schema settings q v registry).2.1 = { field with made := some f } := by
  rw [makesOn, apply]
  cases FormPair.isBlank v with
  | true => exact .inl ⟨rfl, rfl⟩
  | false =>
      have hfailed {fault : Fault} :
          (field.filter schema q.model registry).1.result = .error fault →
            (field.filter schema q.model registry).2 = registry :=
        filter_of_result_eq_error hnew
      simp only [Registering.run]
      generalize field.filter schema q.model registry = made at *
      obtain ⟨⟨log, f | f⟩, rest⟩ := made
      · obtain rfl := hfailed rfl
        exact .inl ⟨rfl, rfl⟩
      · exact .inr ⟨rfl, f, rfl, rfl⟩

theorem after_of_made (h : field.made = some f) (uses : List FieldUse) :
    (after schema settings uses field registry).1 = field := by
  induction uses generalizing registry with
  | nil => rfl
  | cons u uses ih =>
      rw [after, after_apply_of_made h]
      exact ih

/-- Uses of a new field either make no filter, and change nothing, or make it on the first model
that they can. -/
theorem after_of_new (schema : Schema) (settings : Settings) (registry : EntityRegistry)
    (hnew : field.made = none) (uses : List FieldUse) :
    (field.madeOn? schema registry uses = none ∧
        after schema settings uses field registry = (field, registry)) ∨
      ∃ m f, field.madeOn? schema registry uses = some m ∧
        (field.filter schema m registry).1.result = .ok f ∧
          (after schema settings uses field registry).1 = { field with made := some f } := by
  induction uses with
  | nil => exact .inl ⟨rfl, rfl⟩
  | cons u uses ih =>
      rw [madeOn?, List.find?_cons, after]
      rcases after_apply_of_new (q := u.query) (v := u.value) hnew with
        ⟨hmakes, hsame⟩ | ⟨hmakes, f, hmade, hafter⟩
      · rw [hmakes, hsame]
        exact ih
      · rw [hmakes]
        dsimp only
        rw [hafter, after_of_made rfl]
        exact .inr ⟨_, f, rfl, hmade, rfl⟩

theorem ownerOn_of_owner {ref : OwnerRef} (h : field.owner = some ref) (href : ref ≠ .label "")
    (m : Model) : field.ownerOn m = ref := by
  rw [ownerOn, h]
  split
  · next hnone => cases hnone
  · next hlabel => exact absurd (Option.some.inj hlabel) href
  · next owner _ howner => exact (Option.some.inj howner).symm

theorem ownerOn_ne_label (field : FilterField) (m : Model) : field.ownerOn m ≠ .label "" := by
  rw [ownerOn]
  split
  · simp
  · simp
  · next owner hne _ => exact fun hlabel => hne (hlabel ▸ rfl)

theorem filter_congr {field other : FilterField} {n : Model} (hnew : field.made = none)
    (hother : other.made = none) (hname : other.fieldName = field.fieldName)
    (howner : other.ownerOn n = field.ownerOn m) :
    other.filter schema n = field.filter schema m := by
  rw [filter, filter, hnew, hother, howner, hname, column, column, hname]

theorem filter_ownedOn (hnew : field.made = none) (m n : Model) :
    (field.ownedOn m).filter schema n = field.filter schema m :=
  filter_congr hnew hnew rfl (ownerOn_of_owner rfl (field.ownerOn_ne_label m) n)

def HasOwner (field : FilterField) : Prop :=
  ∃ ref, field.owner = some ref ∧ ref ≠ .label ""

/-- Whether a field makes a filter on a model that does not filter by a relation. -/
def IsPlainOn (schema : Schema) (field : FilterField) (registry : EntityRegistry) (m : Model) :
    Prop :=
  ∃ f, (field.filter schema m registry).1.result = .ok f ∧ f.segments.length ≠ 2

/-- What owns a filter makes no difference if it does not filter by a relation. -/
theorem narrowBy_eq {n : Model} {g : Filter} (hnew : field.made = none)
    (hf : (field.filter schema m registry).1.result = .ok f)
    (hg : (field.filter schema n registry).1.result = .ok g) (hsegments : f.segments.length ≠ 2) :
    field.narrowBy schema settings q v g = field.narrowBy schema settings q v f := by
  obtain ⟨path, hmake⟩ := filter_of_new schema hnew
  have hparts (n : Model) (g : Filter) (hg : (field.filter schema n registry).1.result = .ok g) :
      g.name = field.fieldName ∧ g.column = path := by
    rw [(hmake n registry).1] at hg
    cases hresolve : (EntityRegistry.resolve schema (field.ownerOn n) registry).1.result with
    | error fault =>
        rw [hresolve] at hg
        cases hg
    | ok e =>
        rw [hresolve] at hg
        obtain rfl := Except.ok.inj hg
        exact ⟨rfl, rfl⟩
  obtain ⟨hname, hcolumn⟩ := hparts m f hf
  obtain ⟨hname', hcolumn'⟩ := hparts n g hg
  rw [narrowBy, narrowBy, Filter.apply_congr_of_relation (hname'.trans hname.symm)
    (hcolumn'.trans hcolumn.symm) (fun name column h => ?_) rfl]
  rw [h] at hsegments
  exact absurd rfl hsegments

/-- A use of a field does what a new field does whose owner is the model that the filter was made
on. So it does what the new field does on its own, if that has an owner, if the filter was made on
the model of this very use, or if it does not filter by a relation. -/
theorem result_applyAfter (hnew : field.made = none) (registry : EntityRegistry)
    (before : List FieldUse) (u : FieldUse) :
    (field.applyAfter schema settings registry before u).result =
      ((field.ownedOn ((field.madeOn? schema registry before).getD u.query.model)).applyAfter
        schema settings registry [] u).result ∧
    (field.HasOwner ∨ (∀ m ∈ field.madeOn? schema registry before, m = u.query.model) ∨
        field.IsPlainOn schema registry u.query.model →
      (field.applyAfter schema settings registry before u).result =
        (field.applyAfter schema settings registry [] u).result) := by
  simp only [applyAfter]
  rcases after_of_new schema settings registry hnew before with
    ⟨hmodel, hsame⟩ | ⟨m, f, hmodel, hmade, hafter⟩
  · have hfresh : ((field.ownedOn u.query.model).apply schema settings u.query u.value
        registry).1.result =
          (field.apply schema settings u.query u.value registry).1.result := by
      rw [result_apply, result_apply, filter_ownedOn hnew]
      rfl
    rw [hsame, hmodel, Option.getD_none]
    exact ⟨hfresh.symm, fun _ => rfl⟩
  · simp only [after, hmodel, hafter, Option.getD_some]
    rw [result_apply, result_apply, result_apply, filter_of_made rfl, filter_ownedOn hnew, hmade]
    refine ⟨rfl, fun h => ?_⟩
    -- what is left is the filter that the new field makes on the model of this use
    suffices hown : ∃ g, (field.filter schema u.query.model registry).1.result = .ok g ∧
        field.narrowBy schema settings u.query u.value g =
          field.narrowBy schema settings u.query u.value f by
      obtain ⟨g, hg, heq⟩ := hown
      rw [hg]
      exact congrArg (ite _ _) heq.symm
    rcases h with ⟨ref, hgiven, href⟩ | hsame | ⟨plain, hplain, hsegments⟩
    · have howner := (ownerOn_of_owner hgiven href u.query.model).trans
        (ownerOn_of_owner hgiven href m).symm
      rw [filter_congr hnew hnew rfl howner]
      exact ⟨f, hmade, rfl⟩
    · exact ⟨f, hsame m rfl ▸ hmade, rfl⟩
    · exact ⟨plain, hplain, (narrowBy_eq hnew hplain hmade hsegments).symm⟩

end FilterField

namespace Press

def author : Model :=
  { key := "press.Author", app := "press", name := "Author", table := "authors"
    fields := [{ name := "id", kind := .column .integer "AutoField", isKey := true }]
    lineage := ["press.Author"], concrete := "press.Author" }

def editor : Model :=
  { key := "press.Editor", app := "press", name := "Editor", table := "editors"
    fields := [{ name := "id", kind := .column .integer "AutoField", isKey := true }]
    lineage := ["press.Editor"], concrete := "press.Editor" }

/-- Authors and editors both have `posts`, by different references. -/
def post : Model :=
  { key := "press.Post", app := "press", name := "Post", table := "posts"
    fields := [{ name := "id", kind := .column .integer "AutoField", isKey := true },
      { name := "author", kind := .reference false "Author" none false, relatedName := "posts" },
      { name := "editor", kind := .reference false "Editor" none false, isNullable := true
        relatedName := "posts" }]
    lineage := ["press.Post"], concrete := "press.Post" }

def schema : Schema := { models := [author, editor, post], apps := ["press"] }

/-- A post of the author that the editor of the same number has not edited. -/
def shelf : Database :=
  ⟨fun key =>
    if key = "press.Author" then [[("id", .int 1)]]
    else if key = "press.Editor" then [[("id", .int 1)]]
    else if key = "press.Post" then
      [[("id", .int 3), ("author_id", .int 1), ("editor_id", .null)]]
    else []⟩

def byPost : FilterField := { fieldName := "posts__id" }

def third : Value := .mapping [("operator", .text "="), ("value", .text "3")]

def rows? (outcome : Outcome Query) : Option (List Row) :=
  outcome.result.toOption.bind fun q => (q.fetch shelf).toOption

end Press

open Press in
/-- A blank use on the editors does not matter to the authors. -/
theorem FilterField.result_applyAfter_press : byPost.made = none ∧
    (byPost.applyAfter schema (.ofProject .null) { number := 0 }
        [⟨.all editor, .null⟩, ⟨.all author, third⟩] ⟨.all author, third⟩).result =
      (byPost.applyAfter schema (.ofProject .null) { number := 0 } []
        ⟨.all author, third⟩).result ∧
    rows? (byPost.applyAfter schema (.ofProject .null) { number := 0 } [] ⟨.all author, third⟩) =
      some [[("id", .int 1)]] := by
  have hmade : byPost.makesOn schema { number := 0 } ⟨.all author, third⟩ = true := by
    decide +kernel
  have hmodel : byPost.madeOn? schema { number := 0 }
      [⟨.all editor, .null⟩, ⟨.all author, third⟩] = some author := by
    rw [madeOn?, List.find?_cons, List.find?_cons, hmade]
    rfl
  have hsame : ∀ m ∈ byPost.madeOn? schema { number := 0 }
      [⟨.all editor, .null⟩, ⟨.all author, third⟩], m = author := by
    rw [hmodel]
    exact fun m hm => (Option.some.inj hm).symm
  exact ⟨rfl, (result_applyAfter rfl { number := 0 } _ ⟨.all author, third⟩).2 (.inr (.inl hsame)),
    by decide +kernel⟩

open Press in
/-- A field that was used on the editors filters the authors by what the editors edited. -/
theorem FilterField.rows_applyAfter_editors :
    rows? (byPost.applyAfter schema (.ofProject .null) { number := 0 } [] ⟨.all author, third⟩) =
        some [[("id", .int 1)]] ∧
      rows? (byPost.applyAfter schema (.ofProject .null) { number := 0 } [⟨.all editor, third⟩]
        ⟨.all author, third⟩) = some [] := by
  decide +kernel

end RowFilter
