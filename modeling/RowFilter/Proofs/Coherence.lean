import RowFilter.Query.Link

/-!
Coherent schemas. A host checks the models that it is given before it puts any query to a database:
the names that a model has from its lineage and from other models' links do not clash, and what a
reference holds is found in a column. The models are told apart by their keys besides. In a coherent
schema a field is found by its name and by that of its column, a visible link by the name that
queries know it by, and a reference is looked at in the column that holds it.
-/

namespace RowFilter

/-- Whether rows hold the values of the field in a column of their own. -/
def Field.hasColumn (f : Field) : Bool :=
  match f.kind with
  | .column .. | .reference .. => true
  | _ => false

/-- Whether a text is one name of a path, and not the one that means any key. -/
structure IsPlainName (name : String) : Prop where
  pieces : Text.doublePieces name = [name]
  ne_pk : name ≠ "pk"

instance (name : String) : Decidable (IsPlainName name) :=
  decidable_of_iff (Text.doublePieces name = [name] ∧ name ≠ "pk")
    ⟨fun h => ⟨h.1, h.2⟩, fun h => ⟨h.pieces, h.ne_pk⟩⟩

deriving instance DecidableEq for Model

deriving instance DecidableEq for Member

namespace Schema

def linked? (schema : Schema) (m : Model) (f : Field) : Option Model :=
  f.target?.bind (schema.target? m)

/-- What a host checks of the keys, names and links of the models of a schema. -/
structure Checked (schema : Schema) : Prop where
  /-- A model has one key, in a column. -/
  key : ∀ m ∈ schema.models, ∃ f ∈ (schema.concrete m).ownFields,
    schema.keyField? m = some f ∧ f.hasColumn = true ∧
      (schema.lead? (.forward (schema.concrete m) f)).isSome = true
  /-- Neither names nor column names of fields clash with those of another field. -/
  fields : ∀ m ∈ schema.models, ∀ owner ∈ schema.lineage m, ∀ f ∈ owner.ownFields,
    schema.forward? m f.name = some (owner, f) ∧ schema.forward? m f.columnName = some (owner, f)
  names : ∀ m ∈ schema.models, ∀ f ∈ m.ownFields, IsPlainName f.name ∧ f.columnName ≠ "pk"
  /-- A reference holds what its target has in a column. -/
  targets : ∀ m ∈ schema.models, ∀ f ∈ m.ownFields, f.isLinks = false →
    ∀ target ∈ schema.linked? m f, ∀ field ∈ (schema.targetField m target f).toOption,
      field.hasColumn = true ∧
        (schema.lead? (.forward (schema.concrete target) field)).isSome = true
  /-- The name by which queries go through a visible link backwards does not clash with another. -/
  links : ∀ m ∈ schema.models, ∀ f ∈ m.ownFields, f.isLinks = true → m.hidesBack f = false →
    ∀ target ∈ schema.linked? m f, IsPlainName (m.queryName f) ∧
      schema.forward? target (m.queryName f) = none ∧
      schema.reverse? target (m.queryName f) = some (m, f)
  /-- There are pairs for a visible link, which lead either way. -/
  pairs : ∀ m ∈ schema.models, ∀ f ∈ m.ownFields, f.isLinks = true → m.hidesBack f = false →
    ∀ target ∈ schema.linked? m f, (schema.lead? (.forward m f)).isSome = true ∧
      (schema.lead? (.reverse m f target)).isSome = true

/-- A schema that was checked, and whose models are told apart and made of one another as an
assembly makes them. -/
structure Coherent (schema : Schema) : Prop extends Checked schema where
  /-- No two models have one key. -/
  find_key : ∀ m ∈ schema.models, schema.find? m.key = some m
  self_mem : ∀ m ∈ schema.models, m ∈ schema.lineage m
  /-- The model whose table holds the rows of a model is one that the model builds on. -/
  concrete_mem : ∀ m ∈ schema.models, schema.concrete m ∈ schema.lineage m
  concrete_key : ∀ m ∈ schema.models, m.isProxy = false → m.concrete = m.key

variable {schema : Schema} {m owner target through : Model} {f near far : Field} {name : String}
  {c : ColumnRef} {lead : Lead}

theorem mem_of_find? (h : schema.find? name = some m) : m ∈ schema.models :=
  List.mem_of_find?_eq_some h

theorem mem_of_target? (howner : owner ∈ schema.models) (h : schema.target? owner name = some m) :
    m ∈ schema.models := by
  unfold target? at h
  split at h
  · exact Option.some.inj h ▸ howner
  · split at h
    · exact List.mem_of_find?_eq_some h
    · exact List.mem_of_find?_eq_some h
    · cases h

theorem mem_of_linked? (howner : owner ∈ schema.models) (h : schema.linked? owner f = some m) :
    m ∈ schema.models := by
  obtain ⟨name, _, h⟩ := Option.bind_eq_some_iff.1 h
  exact mem_of_target? howner h

theorem mem_of_mem_lineage (hm : m ∈ schema.models) (h : owner ∈ schema.lineage m) :
    owner ∈ schema.models := by
  obtain ⟨key, _, h⟩ := List.mem_filterMap.1 h
  split at h
  · exact Option.some.inj h ▸ hm
  · exact mem_of_find? h

/-- A field that a model is found to have is one of its lineage, unless it is generic. -/
theorem mem_of_forward? (hf : f.isGeneric = false) (h : schema.forward? m name = some (owner, f)) :
    owner ∈ schema.lineage m ∧ f ∈ owner.ownFields := by
  have hmem := List.mem_reverse.1 (List.mem_of_find?_eq_some h)
  rcases List.mem_append.1 hmem with hmem | hmem
  · obtain ⟨base, hbase, hmem⟩ := List.mem_flatMap.1 hmem
    obtain ⟨field, hfield, heq⟩ := List.mem_map.1 hmem
    cases heq
    exact ⟨hbase, hfield⟩
  · obtain ⟨field, hfield, heq⟩ := List.mem_map.1 hmem
    cases heq
    rw [(List.mem_filter.1 hfield).2] at hf
    cases hf

theorem isGeneric_of_hasColumn (h : f.hasColumn = true) : f.isGeneric = false := by
  unfold Field.hasColumn at h
  unfold Field.isGeneric
  split at h <;> simp_all

theorem follow?_singleton (schema : Schema) (m : Model) (name : String) :
    schema.follow? [] m [name] =
      ((schema.member? m name).bind schema.lead?).map fun lead =>
        ⟨lead.column, lead.typeName, []⟩ := by
  rw [follow?]
  cases schema.member? m name with
  | none => rfl
  | some x =>
      cases hlead : schema.lead? x with
      | none => simp [hlead]
      | some lead => cases htarget : lead.target <;> simp [hlead, htarget, follow?]

theorem resolveNames_singleton_eq_ok_iff : schema.resolveNames m [name] = .ok c ↔
    ∃ x lead, schema.member? m name = some x ∧ schema.lead? x = some lead ∧
      c = lead.column.trimmed := by
  rw [resolveNames, follow?_singleton]
  cases schema.member? m name with
  | none => simp
  | some x => cases hlead : schema.lead? x <;> simp [hlead, Lookup.follow, eq_comm]

theorem outerColumn_eq_ok_iff : schema.outerColumn m name = .ok c ↔
    ∃ x lead, schema.member? m name = some x ∧ schema.lead? x = some lead ∧
      c = lead.column.trimmed := by
  rw [outerColumn, follow?_singleton]
  cases schema.member? m name with
  | none => simp
  | some x => cases hlead : schema.lead? x <;> simp [hlead, eq_comm]

theorem member?_of_ne_pk (h : name ≠ "pk") : schema.member? m name =
    match schema.forward? m name with
    | some (owner, f) => some (.forward owner f)
    | none => (schema.reverse? m name).map fun (source, f) => .reverse source f m := by
  cases hforward : schema.forward? m name <;> simp [member?, h, hforward]

theorem member?_of_forward? (hname : name ≠ "pk") (h : schema.forward? m name = some (owner, f)) :
    schema.member? m name = some (.forward owner f) := by
  rw [member?_of_ne_pk hname, h]

theorem resolveNames_eq_ok_iff_of_member? {x : Member} (hname : IsPlainName name)
    (hx : schema.member? m name = some x) :
    schema.resolveNames m (Text.doublePieces name) = .ok c ↔
      ∃ lead, schema.lead? x = some lead ∧ c = lead.column.trimmed := by
  rw [hname.pieces, resolveNames_singleton_eq_ok_iff]
  simp only [hx, Option.some.injEq, exists_and_left, exists_eq_left']

theorem outerColumn_eq_ok_iff_of_member? {x : Member} (hx : schema.member? m name = some x) :
    schema.outerColumn m name = .ok c ↔
      ∃ lead, schema.lead? x = some lead ∧ c = lead.column.trimmed := by
  rw [outerColumn_eq_ok_iff]
  simp only [hx, Option.some.injEq, exists_and_left, exists_eq_left']

namespace Coherent

variable (hschema : schema.Coherent) (hm : m ∈ schema.models)

include hschema hm

theorem member?_name (howner : owner ∈ schema.lineage m) (hf : f ∈ owner.ownFields) :
    schema.member? m f.name = some (.forward owner f) := by
  have hplain := (hschema.names owner (mem_of_mem_lineage hm howner) f hf).1
  exact member?_of_forward? hplain.ne_pk (hschema.fields m hm owner howner f hf).1

theorem member?_columnName (howner : owner ∈ schema.lineage m) (hf : f ∈ owner.ownFields) :
    schema.member? m f.columnName = some (.forward owner f) := by
  have hne := (hschema.names owner (mem_of_mem_lineage hm howner) f hf).2
  exact member?_of_forward? hne (hschema.fields m hm owner howner f hf).2

theorem member?_pk (hkey : schema.keyField? m = some f) :
    schema.member? m "pk" = some (.forward (schema.concrete m) f) := by
  obtain ⟨key, hown, hkey', _⟩ := hschema.key m hm
  obtain rfl := Option.some.inj (hkey.symm.trans hkey')
  have hforward := (hschema.fields m hm _ (hschema.concrete_mem m hm) f hown).1
  simp only [member?, if_true, hkey, Option.map_some, Option.getD_some, hforward]

/-- A visible link is known on the other side by the name that queries have for it. -/
theorem member?_queryName (hf : f ∈ m.ownFields) (hlinks : f.isLinks = true)
    (hvisible : m.hidesBack f = false) (hlinked : schema.linked? m f = some target) :
    schema.member? target (m.queryName f) = some (.reverse m f target) := by
  obtain ⟨hplain, hforward, hreverse⟩ := hschema.links m hm f hf hlinks hvisible target hlinked
  rw [member?_of_ne_pk hplain.ne_pk, hforward, hreverse]
  rfl

end Coherent

def referred? (schema : Schema) (target : Model) (f : Field) : Option Field :=
  match f.kind with
  | .reference _ _ (some name) _ => (schema.forward? target name).map (·.2)
  | _ => schema.keyField? target

theorem hopTo?_eq (schema : Schema) (owner : Model) (f : Field) : schema.hopTo? owner f =
    (schema.linked? owner f).bind fun target => (schema.referred? target f).map fun key =>
      ({ column := f.columnName, model := target.concrete, target := key.columnName
         isOptional := f.isNullable }, target) := by
  unfold hopTo? linked? referred?
  cases f.target? with
  | none => rfl
  | some name =>
      cases htarget : schema.target? owner name with
      | none => simp [htarget]
      | some found =>
          cases hkind : f.kind with
          | reference unique other held parentLink =>
              cases held with
              | none => cases hkey : schema.keyField? found <;> simp [htarget, hkey]
              | some name => cases hfound : schema.forward? found name <;> simp [htarget, hfound]
          | _ => cases hkey : schema.keyField? found <;> simp [htarget, hkey]

theorem hopTo?_eq_some_iff {hop : Hop} : schema.hopTo? owner f = some (hop, target) ↔
    schema.linked? owner f = some target ∧ ∃ key, schema.referred? target f = some key ∧
      hop = { column := f.columnName, model := target.concrete, target := key.columnName
              isOptional := f.isNullable } := by
  rw [hopTo?_eq]
  constructor
  · intro h
    obtain ⟨found, hfound, h⟩ := Option.bind_eq_some_iff.1 h
    obtain ⟨key, hkey, h⟩ := Option.map_eq_some_iff.1 h
    obtain ⟨rfl, rfl⟩ := Prod.mk.inj h
    exact ⟨hfound, key, hkey, rfl⟩
  · rintro ⟨hfound, key, hkey, rfl⟩
    rw [hfound, Option.bind_some, hkey]
    rfl

theorem hopBack?_eq_some_iff {hop : Hop} : schema.hopBack? owner f = some hop ↔
    ∃ forth target, schema.hopTo? owner f = some (forth, target) ∧
      hop = { column := forth.target, model := owner.concrete, target := forth.column
              isMany := !f.isUnique, isOptional := true, isDirect := false } := by
  rw [hopBack?]
  cases schema.hopTo? owner f with
  | none => simp
  | some found =>
      obtain ⟨forth, target⟩ := found
      simp [eq_comm]

theorem referred?_of_targetField {field : Field} (hf : f.hasColumn = true)
    (h : schema.targetField owner target f = .ok field) :
    schema.referred? target f = some field := by
  unfold targetField at h
  unfold referred?
  split at h
  · next hkind =>
    unfold targetNamed at h
    rw [hkind]
    dsimp only
    split at h
    · cases h
    · next hforward =>
      rw [hforward]
      split at h
      · exact congrArg some (Except.ok.inj h)
      · cases h
  · next hkind =>
    rw [Field.hasColumn, hkind] at hf
    cases hf
  · next hreference _ =>
    have hkey : schema.keyField? target = some field := by
      split at h
      · next hkey => exact hkey.trans (congrArg some (Except.ok.inj h))
      · cases h
    split
    · next hkind => exact absurd hkind (hreference _ _ _ _)
    · exact hkey

end Schema

namespace Blog

def author : Model :=
  { key := "blog.Author", app := "blog", name := "Author", table := "authors"
    fields := [{ name := "id", kind := .column .integer "AutoField", isKey := true },
      { name := "name", kind := .column .text "CharField" }]
    lineage := ["blog.Author"], concrete := "blog.Author" }

def post : Model :=
  { key := "blog.Post", app := "blog", name := "Post", table := "posts"
    fields := [{ name := "id", kind := .column .integer "AutoField", isKey := true },
      { name := "author", kind := .reference false "Author" none false, isNullable := true }]
    lineage := ["blog.Post"], concrete := "blog.Post" }

def schema : Schema := { models := [author, post], apps := ["blog"] }

def shelf : Database :=
  ⟨fun key =>
    if key = "blog.Author" then [[("id", .int 7), ("name", .text "Ada")]]
    else if key = "blog.Post" then
      [[("id", .int 1), ("author_id", .int 7)], [("id", .int 2), ("author_id", .null)],
        [("id", .int 3), ("author_id", .int 7)]]
    else []⟩

/-- Authors, of whom one has no name, and posts by either and by nobody. -/
def signatures : Database :=
  ⟨fun key =>
    if key = "blog.Author" then
      [[("id", .int 7), ("name", .text "Ada")], [("id", .int 8), ("name", .null)],
        [("id", .int 9), ("name", .text "Bob")]]
    else if key = "blog.Post" then
      [[("id", .int 1), ("author_id", .int 7)], [("id", .int 2), ("author_id", .int 8)],
        [("id", .int 3), ("author_id", .null)]]
    else []⟩

theorem coherent : schema.Coherent where
  find_key := by decide +kernel
  self_mem := by decide +kernel
  concrete_mem := by decide +kernel
  concrete_key := by decide +kernel
  key := by decide +kernel
  fields := by decide +kernel
  names := by decide +kernel
  targets := by decide +kernel
  links := by decide +kernel
  pairs := by decide +kernel

end Blog

end RowFilter
