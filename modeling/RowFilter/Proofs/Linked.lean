import RowFilter.Proofs.Coherence

/-!
Linked rows. What a field says of rows is said without a join: by a reference one row refers to
another if what it holds is not null and is what the other has in the column referred to, and by
many-to-many links two rows are linked if there is a pair that refers to both. A relation is looked
up by two names instead, one on either model. That the column found by these names links the same
rows, for a field and for a field seen from the other side, is what has to be shown. Of pairs this
only holds for rows to which they refer by the key: a relation joins them by no other column.
-/

namespace RowFilter

/-- Whether a reference is to a column of the rows themselves, found without any hop. -/
structure ColumnRef.IsOwn (c : ColumnRef) (column : String) : Prop where
  hops : c.hops = []
  column : c.column = column
  part : c.part = none

namespace ColumnRef

variable {c : ColumnRef} {column : String}

theorem IsOwn.read (h : c.IsOwn column) (db : Database) (row : Row) :
    c.read db row = row.cell column := by
  rw [read_of_hops_eq_nil h.hops, cellIn_of_part_eq_none h.part, h.column]

theorem IsOwn.cells (h : c.IsOwn column) (db : Database) (needsRow : Bool) (row : Row) :
    c.cells db needsRow row = [row.cell column] := by
  rw [cells_of_hops_eq_nil h.hops, cellIn_of_part_eq_none h.part, h.column]

theorem trimmed_of_hops_eq_append (hops : List Hop) {hop : Hop} (h : hop.isDirect = true)
    (hc : c.hops = hops ++ [hop]) (hcolumn : c.column = hop.target) :
    c.trimmed =
      { c with column := hop.column, beyond := hop :: c.beyond }.shorten hops.reverse := by
  have hreversed : c.hops.reverse = hop :: hops.reverse := by simp [hc]
  rw [trimmed, hreversed, shorten, if_pos (by simp [h, hcolumn])]

theorem shorten_cons_of_not_direct {hop : Hop} (hops : List Hop) (h : hop.isDirect = false) :
    c.shorten (hop :: hops) = { c with hops := (hop :: hops).reverse } := by
  rw [shorten, if_neg (by simp [h])]

end ColumnRef

def Member.isKeyed : Member → Bool
  | .forward _ f | .reverse _ f _ => f.hasColumn || f.isLinks

def Member.isLinks : Member → Bool
  | .forward _ f | .reverse _ f _ => f.isLinks

namespace Schema

variable {schema : Schema} {m owner source target through related : Model} {f near far : Field}
  {name : String} {lead : Lead} {db : Database} {row other : Row} {x : Member} {r : Relation}

/-- Whether a row of `source` refers to another row by a reference. -/
def Refers (schema : Schema) (source : Model) (f : Field) (row other : Row) : Prop :=
  ∃ hop target, schema.hopTo? source f = some (hop, target) ∧
    (other.cell hop.target).agrees (row.cell f.columnName) = true

/-- Whether there is a row of `through` that refers to both of two rows. -/
def Pairs (schema : Schema) (db : Database) (through : Model) (near far : Field)
    (row other : Row) : Prop :=
  ∃ pair ∈ db.rows through.concrete,
    schema.Refers through near pair row ∧ schema.Refers through far pair other

/-- Whether a member of the model of a row links it to another row. -/
def Linked (schema : Schema) (db : Database) (x : Member) (row other : Row) : Prop :=
  match x with
  | .forward owner f =>
    if f.isLinks then
      ∃ target through near far, schema.linked? owner f = some target ∧
        schema.pairing? owner target f = some (through, near, far) ∧
          schema.Pairs db through near far row other
    else schema.Refers owner f row other
  | .reverse source f target =>
    if f.isLinks then
      ∃ through near far, schema.pairing? source target f = some (through, far, near) ∧
        schema.Pairs db through near far row other
    else schema.Refers source f other row

theorem linked_forward_iff_pairs (hlinks : f.isLinks = true)
    (hlinked : schema.linked? owner f = some target)
    (hpairing : schema.pairing? owner target f = some (through, near, far)) :
    schema.Linked db (.forward owner f) row other ↔
      schema.Pairs db through near far row other := by
  rw [Linked, if_pos hlinks]
  constructor
  · rintro ⟨target', through', near', far', hlinked', hpairing', hpairs⟩
    obtain rfl := Option.some.inj (hlinked.symm.trans hlinked')
    obtain ⟨rfl, rfl, rfl⟩ := by simpa using hpairing.symm.trans hpairing'
    exact hpairs
  · intro hpairs
    exact ⟨target, through, near, far, hlinked, hpairing, hpairs⟩

theorem linked_reverse_iff_pairs (hlinks : f.isLinks = true)
    (hpairing : schema.pairing? source target f = some (through, far, near)) :
    schema.Linked db (.reverse source f target) row other ↔
      schema.Pairs db through near far row other := by
  rw [Linked, if_pos hlinks]
  constructor
  · rintro ⟨through', near', far', hpairing', hpairs⟩
    obtain ⟨rfl, rfl, rfl⟩ := by simpa using hpairing.symm.trans hpairing'
    exact hpairs
  · intro hpairs
    exact ⟨through, near, far, hpairing, hpairs⟩

theorem linked_forward_iff_refers (hlinks : f.isLinks = false) :
    schema.Linked db (.forward owner f) row other ↔ schema.Refers owner f row other := by
  rw [Linked, if_neg (Bool.not_eq_true _ ▸ hlinks)]

theorem linked_reverse_iff_refers (hlinks : f.isLinks = false) :
    schema.Linked db (.reverse source f target) row other ↔ schema.Refers source f other row := by
  rw [Linked, if_neg (Bool.not_eq_true _ ▸ hlinks)]

/-- Whether what `source` refers to in a row of `m` is what the row has as its key. -/
def RefersByKey (schema : Schema) (m source : Model) (f : Field) (row : Row) : Prop :=
  ∀ hop target, schema.hopTo? source f = some (hop, target) →
    ∃ key, schema.keyField? m = some key ∧ row.cell hop.target = row.cell key.columnName

/-- Whether the pairs of a member of `m`, if it has any, refer to a row of `m` by its key. -/
def PairsByKey (schema : Schema) (m : Model) (x : Member) (row : Row) : Prop :=
  match x with
  | .forward owner f => ∀ target through near far, schema.linked? owner f = some target →
      schema.pairing? owner target f = some (through, near, far) →
        schema.RefersByKey m through near row
  | .reverse source f target => ∀ through near far,
      schema.pairing? source target f = some (through, far, near) →
        schema.RefersByKey m through near row

/-- The field that a member of `m` links the rows of `m` by: their own reference, what the
references of others hold, or the key. -/
def linkingField? (schema : Schema) (m : Model) : Member → Option Field
  | .forward _ f => if f.isLinks then schema.keyField? m else some f
  | .reverse source f target =>
    if f.isLinks then schema.keyField? m else (schema.targetField source target f).toOption

theorem isOwn_of_lead? (hf : f.hasColumn = true)
    (h : schema.lead? (.forward owner f) = some lead) : lead.column.trimmed.IsOwn f.columnName := by
  rw [lead?] at h
  split at h
  · obtain rfl := Option.some.inj h
    rw [ColumnRef.trimmed_of_hops_eq_nil rfl]
    exact ⟨rfl, rfl, rfl⟩
  · obtain ⟨⟨hop, target⟩, hhop, h⟩ := Option.bind_eq_some_iff.1 h
    obtain rfl := Option.some.inj h
    obtain ⟨_, key, _, rfl⟩ := hopTo?_eq_some_iff.1 hhop
    rw [ColumnRef.trimmed_of_hops_eq_append [] rfl rfl rfl]
    exact ⟨rfl, rfl, rfl⟩
  · next hkind =>
    rw [Field.hasColumn, hkind] at hf
    cases hf
  · cases h

theorem hasColumn_of_lead? (hlinks : f.isLinks = false)
    (h : schema.lead? (.forward owner f) = some lead) : f.hasColumn = true := by
  rw [lead?] at h
  split at h
  · next hkind => rw [Field.hasColumn, hkind]
  · next hkind => rw [Field.hasColumn, hkind]
  · next hkind =>
    rw [Field.isLinks, hkind] at hlinks
    cases hlinks
  · cases h

/-- Across pairs a column is found in those that refer to a row by the near side: that of the far
side. -/
theorem trimmed_of_leadAcross? (h : schema.leadAcross? through near far = some lead) :
    ∃ forth target back, schema.hopTo? through near = some (forth, target) ∧
      back.column = forth.target ∧ back.model = through.concrete ∧ back.target = near.columnName ∧
      lead.column.trimmed.hops = [back] ∧ lead.column.trimmed.column = far.columnName ∧
      lead.column.trimmed.part = none := by
  rw [leadAcross?] at h
  obtain ⟨back, hback, h⟩ := Option.bind_eq_some_iff.1 h
  obtain ⟨⟨hop, target⟩, hhop, h⟩ := Option.bind_eq_some_iff.1 h
  obtain rfl := Option.some.inj h
  obtain ⟨forth, nearTarget, hforth, rfl⟩ := hopBack?_eq_some_iff.1 hback
  obtain ⟨_, farKey, _, rfl⟩ := hopTo?_eq_some_iff.1 hhop
  obtain ⟨_, nearKey, _, rfl⟩ := hopTo?_eq_some_iff.1 hforth
  rw [ColumnRef.trimmed_of_hops_eq_append [_] rfl rfl rfl, List.reverse_singleton,
    ColumnRef.shorten_cons_of_not_direct _ rfl]
  exact ⟨_, _, _, hforth, rfl, rfl, rfl, rfl, rfl, rfl⟩

/-- A cell is found across pairs if one of them has it on the far side and refers to the row. -/
theorem any_agrees_of_leadAcross? (h : schema.leadAcross? through near far = some lead)
    (key : Cell) : (lead.column.trimmed.cells db true row).any (·.agrees key) = true ↔
      ∃ pair ∈ db.rows through.concrete, (pair.cell far.columnName).agrees key = true ∧
        schema.Refers through near pair row := by
  obtain ⟨forth, target, back, hforth, hfrom, hmodel, hto, hhops, hcolumn, hpart⟩ :=
    trimmed_of_leadAcross? h
  have hcells : lead.column.trimmed.cells db true row =
      (back.partners db row).map (·.cell far.columnName) := by
    rw [ColumnRef.cells, if_pos rfl, hhops]
    simp only [followHops, List.flatMap_singleton']
    refine List.map_congr_left fun pair _ => ?_
    rw [ColumnRef.cellIn_of_part_eq_none hpart, hcolumn]
  rw [hcells, List.any_map, List.any_eq_true]
  simp only [Hop.partners, hmodel, hto, hfrom, List.mem_filter, Function.comp_apply]
  constructor
  · rintro ⟨pair, ⟨hpair, hnear⟩, hfar⟩
    exact ⟨pair, hpair, hfar, forth, target, hforth, Cell.agrees_comm _ _ ▸ hnear⟩
  · rintro ⟨pair, hpair, hfar, forth', target', hforth', hnear⟩
    obtain ⟨rfl, rfl⟩ := Prod.mk.inj (Option.some.inj (hforth.symm.trans hforth'))
    exact ⟨pair, ⟨hpair, Cell.agrees_comm _ _ ▸ hnear⟩, hfar⟩

/-- What a reference holds is a field of the model whose table holds the rows of its target. -/
theorem mem_ownFields_of_targetField {field : Field} (hschema : schema.Coherent)
    (htarget : target ∈ schema.models) (hf : f.hasColumn = true) (hfield : field.hasColumn = true)
    (h : schema.targetField owner target f = .ok field) :
    field ∈ (schema.concrete target).ownFields := by
  unfold targetField at h
  split at h
  · unfold targetNamed at h
    split at h
    · cases h
    · next found hforward =>
      split at h
      · next hkey =>
        obtain rfl := Except.ok.inj h
        obtain ⟨hmem, hown⟩ := mem_of_forward? (isGeneric_of_hasColumn hfield) hforward
        have hfound := hschema.find_key _ (mem_of_mem_lineage htarget hmem)
        rwa [concrete, ← hkey, hfound]
      · cases h
  · next hkind =>
    rw [Field.hasColumn, hkind] at hf
    cases hf
  · split at h
    · next key hkey =>
      obtain rfl := Except.ok.inj h
      obtain ⟨key', hown, hkey', _⟩ := hschema.key target htarget
      obtain rfl := Option.some.inj (hkey.symm.trans hkey')
      exact hown
    · cases h

theorem pairing?_of_not_isLinks (h : f.isLinks = false) : schema.pairing? m target f = none := by
  unfold pairing?
  split
  · next hkind =>
    rw [Field.isLinks, hkind] at h
    cases h
  · rfl

theorem pairsByKey_of_not_isLinks (h : x.isLinks = false) (m : Model) (row : Row) :
    schema.PairsByKey m x row := by
  cases x with
  | forward owner f =>
      intro target through near far _ hpairing
      rw [pairing?_of_not_isLinks h] at hpairing
      cases hpairing
  | reverse source f target =>
      intro through near far hpairing
      rw [pairing?_of_not_isLinks h] at hpairing
      cases hpairing

variable {column : ColumnRef}

theorem isOwn_of_resolveNames (hschema : schema.Coherent) (hm : m ∈ schema.models)
    (howner : owner ∈ schema.lineage m) (hf : f ∈ owner.ownFields) (hcolumn : f.hasColumn = true)
    (h : schema.resolveNames m (Text.doublePieces f.name) = .ok column) :
    column.IsOwn f.columnName := by
  have hplain := (hschema.names owner (mem_of_mem_lineage hm howner) f hf).1
  have hmember := hschema.member?_name hm howner hf
  obtain ⟨lead, hlead, rfl⟩ := (resolveNames_eq_ok_iff_of_member? hplain hmember).1 h
  exact isOwn_of_lead? hcolumn hlead

theorem isOwn_of_outerColumn (hschema : schema.Coherent) (hm : m ∈ schema.models)
    (howner : owner ∈ schema.lineage m) (hf : f ∈ owner.ownFields) (hcolumn : f.hasColumn = true)
    (h : schema.outerColumn m f.columnName = .ok column) : column.IsOwn f.columnName := by
  have hmember := hschema.member?_columnName hm howner hf
  obtain ⟨lead, hlead, rfl⟩ := (outerColumn_eq_ok_iff_of_member? hmember).1 h
  exact isOwn_of_lead? hcolumn hlead

theorem isOwn_of_outerColumn_pk {key : Field} (hschema : schema.Coherent) (hm : m ∈ schema.models)
    (hkey : schema.keyField? m = some key) (h : schema.outerColumn m "pk" = .ok column) :
    column.IsOwn key.columnName := by
  obtain ⟨key', _, hkey', hcolumn, _⟩ := hschema.key m hm
  obtain rfl := Option.some.inj (hkey.symm.trans hkey')
  have hmember := hschema.member?_pk hm hkey
  obtain ⟨lead, hlead, rfl⟩ := (outerColumn_eq_ok_iff_of_member? hmember).1 h
  exact isOwn_of_lead? hcolumn hlead

theorem pairing?_of_lead?_forward (hf : f.isLinks = true)
    (h : schema.lead? (.forward owner f) = some lead) :
    ∃ target through left right, schema.linked? owner f = some target ∧
      schema.pairing? owner target f = some (through, left, right) ∧
        schema.leadAcross? through left right = some lead := by
  rw [lead?] at h
  split at h
  · next hkind => rw [Field.isLinks, hkind] at hf; cases hf
  · next hkind => rw [Field.isLinks, hkind] at hf; cases hf
  · obtain ⟨name, hname, h⟩ := Option.bind_eq_some_iff.1 h
    obtain ⟨target, htarget, h⟩ := Option.bind_eq_some_iff.1 h
    obtain ⟨⟨through, left, right⟩, hpairing, h⟩ := Option.bind_eq_some_iff.1 h
    exact ⟨target, through, left, right, by rw [linked?, hname]; exact htarget, hpairing, h⟩
  · cases h

theorem pairing?_of_lead?_reverse {seen : Model} (hf : f.isLinks = true)
    (h : schema.lead? (.reverse source f seen) = some lead) :
    ∃ target through left right, schema.linked? source f = some target ∧
      schema.pairing? source target f = some (through, left, right) ∧
        schema.leadAcross? through right left = some lead := by
  rw [lead?, if_pos hf] at h
  obtain ⟨name, hname, h⟩ := Option.bind_eq_some_iff.1 h
  obtain ⟨target, htarget, h⟩ := Option.bind_eq_some_iff.1 h
  obtain ⟨⟨through, left, right⟩, hpairing, h⟩ := Option.bind_eq_some_iff.1 h
  exact ⟨target, through, left, right, by rw [linked?, hname]; exact htarget, hpairing, h⟩

/-- A relation of a model's own link or reference joins by what it holds, or by the name that
queries on the other side know it by. -/
theorem forward_of_relationOf (h : (schema.relationOf m (.forward owner f)).result = .ok (some r)) :
    ∃ target, schema.linked? owner f = some target ∧ f.isGeneric = false ∧ r.related = target.key ∧
      (f.isLinks = true ∧ owner.hidesBack f = false ∧ r.joinKey = owner.queryName f ∧
          r.outerKey = "pk" ∨
        f.isLinks = false ∧ f.hasColumn = true ∧ ∃ field,
          schema.targetField owner target f = .ok field ∧ r.joinKey = field.name ∧
            r.outerKey = f.columnName) := by
  rw [relationOf] at h
  split at h
  · cases h
  · split at h
    · cases h
    · next target htarget =>
      refine ⟨target, htarget, ?_⟩
      split at h
      · next hkind =>
        have hlinks : f.isLinks = false := by rw [Field.isLinks, hkind]
        rw [Outcome.result_ofExcept, forwardRelation, if_neg (by simp [hlinks])] at h
        refine ⟨by rw [Field.isGeneric, hkind], ?_⟩
        cases hfield : schema.targetField owner target f with
        | error e => rw [hfield] at h; cases h
        | ok field =>
            rw [hfield] at h
            obtain rfl := Option.some.inj (Except.ok.inj h)
            exact ⟨rfl, .inr ⟨hlinks, by rw [Field.hasColumn, hkind], field, rfl, rfl, rfl⟩⟩
      · next hkind =>
        have hlinks : f.isLinks = true := by rw [Field.isLinks, hkind]
        rw [Outcome.result_ofExcept, forwardRelation, if_pos hlinks] at h
        refine ⟨by rw [Field.isGeneric, hkind], ?_⟩
        have hsome := Except.ok.inj h
        split at hsome
        · cases hsome
        · next hvisible =>
          obtain rfl := Option.some.inj hsome
          exact ⟨rfl, .inl ⟨hlinks, by simpa using hvisible, rfl, rfl⟩⟩
      · cases h

theorem reverse_of_relationOf
    (h : (schema.relationOf m (.reverse source f target)).result = .ok (some r)) :
    r.related = source.key ∧ r.joinKey = f.name ∧
      (f.isLinks = true ∧ r.outerKey = "pk" ∨
        f.isLinks = false ∧ ∃ field, schema.targetField source target f = .ok field ∧
          r.outerKey = field.columnName) := by
  rw [relationOf, Outcome.result_ofExcept, reverseRelation] at h
  dsimp only at h
  split at h
  · cases h
  · cases hlinks : f.isLinks with
    | true =>
        rw [hlinks, if_pos rfl] at h
        obtain rfl := Option.some.inj (Except.ok.inj h)
        exact ⟨rfl, rfl, .inl ⟨rfl, rfl⟩⟩
    | false =>
        rw [hlinks, if_neg Bool.false_ne_true] at h
        cases hfield : schema.targetField source target f with
        | error e => rw [hfield] at h; cases h
        | ok field =>
            rw [hfield] at h
            obtain rfl := Option.some.inj (Except.ok.inj h)
            exact ⟨rfl, rfl, .inr ⟨rfl, field, rfl, rfl⟩⟩

theorem of_forwardRelation (h : schema.forwardRelation owner target f = .ok (some r)) :
    r.name = f.name ∧ r.related = target.key ∧ r.storageName = target.table ∧
      r.kind = f.relationKind := by
  unfold forwardRelation at h
  split at h
  · have hsome := Except.ok.inj h
    split at hsome
    · cases hsome
    · rw [← Option.some.inj hsome]
      exact ⟨rfl, rfl, rfl, rfl⟩
  · cases hfield : schema.targetField owner target f with
    | error e => rw [hfield] at h; cases h
    | ok field =>
        rw [hfield] at h
        rw [← Option.some.inj (Except.ok.inj h)]
        exact ⟨rfl, rfl, rfl, rfl⟩

theorem of_reverseRelation (h : schema.reverseRelation source target f = .ok (some r)) :
    r.name = source.accessor f ∧ r.related = source.key ∧ r.storageName = source.table ∧
      r.kind = f.relationKind.dual := by
  rw [reverseRelation] at h
  dsimp only at h
  split at h
  · cases h
  · split at h
    · rw [← Option.some.inj (Except.ok.inj h)]
      exact ⟨rfl, rfl, rfl, rfl⟩
    · cases hfield : schema.targetField source target f with
      | error e => rw [hfield] at h; cases h
      | ok field =>
          rw [hfield] at h
          rw [← Option.some.inj (Except.ok.inj h)]
          exact ⟨rfl, rfl, rfl, rfl⟩

theorem forwardRelation_of_relationOf
    (h : (schema.relationOf m (.forward owner f)).result = .ok (some r)) :
    ∃ target, schema.linked? owner f = some target ∧
      schema.forwardRelation owner target f = .ok (some r) := by
  rw [relationOf] at h
  split at h
  · cases h
  · split at h
    · cases h
    · next target htarget =>
      refine ⟨target, htarget, ?_⟩
      split at h
      · exact h
      · exact h
      · cases h

theorem hidesBack_of_relationOf
    (h : (schema.relationOf m (.reverse source f target)).result = .ok (some r)) :
    source.hidesBack f = false := by
  rw [relationOf, Outcome.result_ofExcept, reverseRelation] at h
  dsimp only at h
  split at h
  · cases h
  · next hseen =>
    rw [Bool.or_eq_true, not_or, Model.accessor] at hseen
    rw [Model.hidesBack]
    cases hname : source.relatedName? f with
    | none => rfl
    | some name =>
        rw [hname, Option.getD_some] at hseen
        rw [Option.map_some, Option.getD_some]
        simpa using hseen.2

theorem mem_linksTo_iff : x ∈ schema.linksTo m ↔ ∃ source ∈ schema.models,
    ∃ f ∈ source.ownFields, ∃ target, schema.linked? source f = some target ∧
      target.concrete = m.concrete ∧ x = .reverse source f target := by
  have hone (source : Model) (f : Field) : (do
      let target ← schema.target? source (← f.target?)
      if target.concrete = m.concrete then some (Member.reverse source f target) else none) =
        some x ↔ ∃ target, schema.linked? source f = some target ∧
          target.concrete = m.concrete ∧ x = .reverse source f target := by
    rw [linked?]
    cases f.target? with
    | none => simp
    | some name =>
        cases htarget : schema.target? source name <;> simp [htarget, eq_comm]
  rw [linksTo, List.mem_flatMap]
  simp only [List.mem_filterMap, hone]

theorem mem_of_forward_mem_members (hf : f.isGeneric = false)
    (h : .forward owner f ∈ schema.members m) :
    owner ∈ schema.lineage m ∧ f ∈ owner.ownFields := by
  rcases List.mem_append.1 h with h | h
  · obtain ⟨base, hbase, h⟩ := List.mem_flatMap.1 h
    rcases List.mem_append.1 h with h | h
    · split at h
      · cases h
      · obtain ⟨_, _, _, _, _, _, _, heq⟩ := mem_linksTo_iff.1 (List.mem_filter.1 h).1
        cases heq
    · obtain ⟨field, hfield, heq⟩ := List.mem_map.1 h
      cases heq
      exact ⟨hbase, hfield⟩
  · obtain ⟨field, hfield, heq⟩ := List.mem_map.1 h
    cases heq
    rw [(List.mem_filter.1 hfield).2] at hf
    cases hf

/-- The other sides of links that a model lists lead to a model that it builds on, and whose table
holds its own rows. -/
theorem mem_of_reverse_mem_members (h : .reverse source f target ∈ schema.members m) :
    ∃ base ∈ schema.lineage m, base.isProxy = false ∧ source ∈ schema.models ∧
      f ∈ source.ownFields ∧ schema.linked? source f = some target ∧
        target.concrete = base.concrete := by
  rcases List.mem_append.1 h with h | h
  · obtain ⟨base, hbase, h⟩ := List.mem_flatMap.1 h
    rcases List.mem_append.1 h with h | h
    · split at h
      · cases h
      · next hproxy =>
        obtain ⟨_, hsource, _, hf, _, hlinked, hconcrete, heq⟩ :=
          mem_linksTo_iff.1 (List.mem_filter.1 h).1
        cases heq
        exact ⟨base, hbase, by simpa using hproxy, hsource, hf, hlinked, hconcrete⟩
    · obtain ⟨_, _, heq⟩ := List.mem_map.1 h
      cases heq
  · obtain ⟨_, _, heq⟩ := List.mem_map.1 h
    cases heq

theorem concrete_eq_of_not_proxy {base : Model} (hschema : schema.Coherent)
    (hbase : base ∈ schema.models) (hproxy : base.isProxy = false)
    (hconcrete : target.concrete = base.concrete) : schema.concrete target = base := by
  rw [concrete, hconcrete, hschema.concrete_key base hbase hproxy, hschema.find_key base hbase]
  rfl

section Leads

variable {join outer : ColumnRef}

theorem leads_iff_of_isOwn {joinColumn outerColumn : String} (hjoin : join.IsOwn joinColumn)
    (houter : outer.IsOwn outerColumn) : Link.leads db ⟨related, join, outer⟩ row other = true ↔
      (other.cell joinColumn).agrees (row.cell outerColumn) = true := by
  rw [Link.leads, hjoin.cells, houter.read, List.any_cons, List.any_nil, Bool.or_false]

theorem exists_hopTo?_of_leadAcross? (h : schema.leadAcross? through near far = some lead) :
    ∃ hop target, schema.hopTo? through far = some (hop, target) := by
  rw [leadAcross?] at h
  obtain ⟨_, _, h⟩ := Option.bind_eq_some_iff.1 h
  obtain ⟨⟨hop, target⟩, hhop, _⟩ := Option.bind_eq_some_iff.1 h
  exact ⟨hop, target, hhop⟩

/-- A link across pairs leads where one of them refers to both rows, if it refers to the row that
is led from by its key. -/
theorem leads_iff_pairs {key : Field} (hkey : schema.keyField? m = some key)
    (hlead : schema.leadAcross? through near far = some lead)
    (houter : outer.IsOwn key.columnName) (hrow : schema.RefersByKey m through far row) :
    Link.leads db ⟨related, lead.column.trimmed, outer⟩ row other = true ↔
      schema.Pairs db through far near row other := by
  obtain ⟨hop, target, hhop⟩ := exists_hopTo?_of_leadAcross? hlead
  obtain ⟨key', hkey', hcell⟩ := hrow hop target hhop
  obtain rfl := Option.some.inj (hkey.symm.trans hkey')
  rw [Link.leads, any_agrees_of_leadAcross? hlead, houter.read]
  refine exists_congr fun pair => and_congr_right fun _ => and_congr_left fun _ => ?_
  rw [Cell.agrees_comm, ← hcell]
  constructor
  · intro hagrees
    exact ⟨hop, target, hhop, hagrees⟩
  · rintro ⟨hop', target', hhop', hagrees⟩
    obtain ⟨rfl, rfl⟩ := Prod.mk.inj (Option.some.inj (hhop.symm.trans hhop'))
    exact hagrees

theorem refers_iff_of_referred? {field : Field} (hlinked : schema.linked? source f = some target)
    (hfield : schema.referred? target f = some field) : schema.Refers source f row other ↔
      (other.cell field.columnName).agrees (row.cell f.columnName) = true := by
  have hhop := hopTo?_eq_some_iff.2 ⟨hlinked, field, hfield, rfl⟩
  constructor
  · rintro ⟨hop, target', hhop', hagrees⟩
    obtain ⟨rfl, rfl⟩ := Prod.mk.inj (Option.some.inj (hhop.symm.trans hhop'))
    exact hagrees
  · intro hagrees
    exact ⟨_, target, hhop, hagrees⟩

theorem refers_iff {field : Field} (hf : f.hasColumn = true)
    (hlinked : schema.linked? source f = some target)
    (hfield : schema.targetField source target f = .ok field) :
    schema.Refers source f row other ↔
      (other.cell field.columnName).agrees (row.cell f.columnName) = true :=
  refers_iff_of_referred? hlinked (referred?_of_targetField hf hfield)

theorem openLink_eq_ok_iff : schema.openLink r = .ok (related, join) ↔
    schema.find? r.related = some related ∧
      schema.resolveNames related (Text.doublePieces r.joinKey) = .ok join := by
  rw [openLink, relatedModel]
  cases schema.find? r.related with
  | none => simp [bind, Except.bind]
  | some found =>
      dsimp only [bind, Except.bind]
      constructor
      · intro h
        cases hresolve : schema.resolveNames found (Text.doublePieces r.joinKey) with
        | error e => rw [hresolve] at h; cases h
        | ok column =>
            rw [hresolve] at h
            cases h
            exact ⟨rfl, hresolve⟩
      · rintro ⟨hfound, hresolve⟩
        cases hfound
        rw [hresolve]
        rfl

/-- By a field of its own a model is linked as its relation joins. -/
theorem leads_iff_linked_forward (hschema : schema.Coherent) (hm : m ∈ schema.models)
    (hx : .forward owner f ∈ schema.members m)
    (hr : (schema.relationOf m (.forward owner f)).result = .ok (some r))
    (hopen : schema.openLink r = .ok (related, join))
    (houter : schema.outerColumn m r.outerKey = .ok outer) :
    ∃ near, schema.linkingField? m (.forward owner f) = some near ∧
      outer.IsOwn near.columnName ∧ ∀ db row other, schema.PairsByKey m (.forward owner f) row →
        (Link.leads db ⟨related, join, outer⟩ row other = true ↔
          schema.Linked db (.forward owner f) row other) := by
  obtain ⟨target, hlinked, hgeneric, hrelated, hkind⟩ := forward_of_relationOf hr
  obtain ⟨hfind, hjoin⟩ := openLink_eq_ok_iff.1 hopen
  obtain ⟨howner, hf⟩ := mem_of_forward_mem_members hgeneric hx
  have hownerMem := mem_of_mem_lineage hm howner
  have htarget := mem_of_linked? hownerMem hlinked
  obtain rfl : target = related := by
    rw [hrelated, hschema.find_key target htarget] at hfind
    exact Option.some.inj hfind
  rcases hkind with ⟨hlinks, hvisible, hjoinKey, houterKey⟩ |
    ⟨hlinks, hcolumn, field, hfield, hjoinKey, houterKey⟩
  · -- the name is that of the link seen from the target, and leads back across its pairs
    obtain ⟨hplain, _⟩ := hschema.links owner hownerMem f hf hlinks hvisible target hlinked
    have hmember := hschema.member?_queryName hownerMem hf hlinks hvisible hlinked
    rw [hjoinKey] at hjoin
    obtain ⟨lead, hlead, rfl⟩ := (resolveNames_eq_ok_iff_of_member? hplain hmember).1 hjoin
    obtain ⟨target', through, left, right, hlinked', hpairing, hacross⟩ :=
      pairing?_of_lead?_reverse hlinks hlead
    obtain rfl := Option.some.inj (hlinked.symm.trans hlinked')
    obtain ⟨key, _, hkey, _⟩ := hschema.key m hm
    have hown := isOwn_of_outerColumn_pk hschema hm hkey (houterKey ▸ houter)
    refine ⟨key, by rw [linkingField?, if_pos hlinks, hkey], hown, fun db row other hrow => ?_⟩
    have hrefers := hrow target through left right hlinked hpairing
    rw [leads_iff_pairs hkey hacross hown hrefers,
      linked_forward_iff_pairs hlinks hlinked hpairing]
  · -- the name is that of the field which the reference holds, found in the target's own table
    obtain ⟨hheld, _⟩ := hschema.targets owner hownerMem f hf hlinks target hlinked field
      (by rw [hfield]; rfl)
    have hfieldMem := mem_ownFields_of_targetField hschema htarget hcolumn hheld hfield
    have hjoinOwn := isOwn_of_resolveNames hschema htarget (hschema.concrete_mem target htarget)
      hfieldMem hheld (hjoinKey ▸ hjoin)
    have hown := isOwn_of_outerColumn hschema hm howner hf hcolumn (houterKey ▸ houter)
    refine ⟨f, by simp [linkingField?, hlinks], hown, fun db row other _ => ?_⟩
    rw [leads_iff_of_isOwn hjoinOwn hown, linked_forward_iff_refers hlinks,
      refers_iff hcolumn hlinked hfield]

theorem leads_iff_linked_reverse (hschema : schema.Coherent) (hm : m ∈ schema.models)
    (hx : .reverse source f target ∈ schema.members m)
    (hr : (schema.relationOf m (.reverse source f target)).result = .ok (some r))
    (hopen : schema.openLink r = .ok (related, join))
    (houter : schema.outerColumn m r.outerKey = .ok outer) :
    ∃ near, schema.linkingField? m (.reverse source f target) = some near ∧
      outer.IsOwn near.columnName ∧ ∀ db row other,
        schema.PairsByKey m (.reverse source f target) row →
          (Link.leads db ⟨related, join, outer⟩ row other = true ↔
            schema.Linked db (.reverse source f target) row other) := by
  obtain ⟨hrelated, hjoinKey, hkind⟩ := reverse_of_relationOf hr
  obtain ⟨hfind, hjoin⟩ := openLink_eq_ok_iff.1 hopen
  obtain ⟨base, hbase, hproxy, hsource, hf, hlinked, hconcrete⟩ := mem_of_reverse_mem_members hx
  obtain rfl : source = related := by
    rw [hrelated, hschema.find_key source hsource] at hfind
    exact Option.some.inj hfind
  have hbaseMem := mem_of_mem_lineage hm hbase
  have hplain := (hschema.names source hsource f hf).1
  have hself := hschema.self_mem source hsource
  have hmember := hschema.member?_name hsource hself hf
  rw [hjoinKey] at hjoin
  rcases hkind with ⟨hlinks, houterKey⟩ | ⟨hlinks, field, hfield, houterKey⟩
  · obtain ⟨lead, hlead, rfl⟩ := (resolveNames_eq_ok_iff_of_member? hplain hmember).1 hjoin
    obtain ⟨target', through, left, right, hlinked', hpairing, hacross⟩ :=
      pairing?_of_lead?_forward hlinks hlead
    obtain rfl := Option.some.inj (hlinked.symm.trans hlinked')
    obtain ⟨key, _, hkey, _⟩ := hschema.key m hm
    have hown := isOwn_of_outerColumn_pk hschema hm hkey (houterKey ▸ houter)
    refine ⟨key, by rw [linkingField?, if_pos hlinks, hkey], hown, fun db row other hrow => ?_⟩
    have hrefers := hrow through right left hpairing
    rw [leads_iff_pairs hkey hacross hown hrefers, linked_reverse_iff_pairs hlinks hpairing]
  · have hcolumn : f.hasColumn = true := by
      obtain ⟨lead, hlead, _⟩ := (resolveNames_eq_ok_iff_of_member? hplain hmember).1 hjoin
      exact hasColumn_of_lead? hlinks hlead
    obtain ⟨hheld, _⟩ := hschema.targets source hsource f hf hlinks target hlinked field
      (by rw [hfield]; rfl)
    -- what the reference holds is a field of the base, and so one of the rows themselves
    have hfieldMem : field ∈ base.ownFields := by
      have htarget := mem_of_linked? hsource hlinked
      have hmem := mem_ownFields_of_targetField hschema htarget hcolumn hheld hfield
      rwa [concrete_eq_of_not_proxy hschema hbaseMem hproxy hconcrete] at hmem
    have hjoinOwn := isOwn_of_resolveNames hschema hsource hself hf hcolumn hjoin
    have hown := isOwn_of_outerColumn hschema hm hbase hfieldMem hheld (houterKey ▸ houter)
    refine ⟨field, by simp [linkingField?, hlinks, hfield, Except.toOption], hown,
      fun db row other _ => ?_⟩
    rw [leads_iff_of_isOwn hjoinOwn hown, linked_reverse_iff_refers hlinks,
      refers_iff hcolumn hlinked hfield, Cell.agrees_comm]

/-- However a relation came about, it links the rows that the member links it is made from, those
apart that pairs refer to by something else than the key. -/
theorem leads_iff_linked (hschema : schema.Coherent) (hm : m ∈ schema.models)
    (hx : x ∈ schema.members m) (hr : (schema.relationOf m x).result = .ok (some r))
    (hopen : schema.openLink r = .ok (related, join))
    (houter : schema.outerColumn m r.outerKey = .ok outer) :
    ∃ near, schema.linkingField? m x = some near ∧ outer.IsOwn near.columnName ∧
      ∀ db row other, schema.PairsByKey m x row →
        (Link.leads db ⟨related, join, outer⟩ row other = true ↔
          schema.Linked db x row other) := by
  cases x with
  | forward owner f => exact leads_iff_linked_forward hschema hm hx hr hopen houter
  | reverse source f target => exact leads_iff_linked_reverse hschema hm hx hr hopen houter

/-- Where the key of a model or what a reference holds is found, a relation can be followed. -/
theorem isSome_lead?_of_hasColumn {field : Field} (hf : f.hasColumn = true)
    (hlinked : schema.linked? owner f = some target)
    (hfield : schema.targetField owner target f = .ok field) :
    (schema.lead? (.forward owner f)).isSome = true := by
  have hhop := hopTo?_eq_some_iff.2 ⟨hlinked, field, referred?_of_targetField hf hfield, rfl⟩
  rw [lead?]
  split
  · rfl
  · rw [hhop]
    rfl
  · next hkind =>
    rw [Field.hasColumn, hkind] at hf
    cases hf
  · next hcolumn hreference _ =>
    unfold Field.hasColumn at hf
    split at hf
    · next hkind => exact absurd hkind (hcolumn _ _)
    · next hkind => exact absurd hkind (hreference _ _ _ _)
    · cases hf

theorem exists_resolveNames (hname : IsPlainName name) (hx : schema.member? m name = some x)
    (hlead : (schema.lead? x).isSome = true) :
    ∃ c, schema.resolveNames m (Text.doublePieces name) = .ok c := by
  obtain ⟨lead, hlead⟩ := Option.isSome_iff_exists.1 hlead
  exact ⟨_, (resolveNames_eq_ok_iff_of_member? hname hx).2 ⟨lead, hlead, rfl⟩⟩

theorem exists_outerColumn (hx : schema.member? m name = some x)
    (hlead : (schema.lead? x).isSome = true) : ∃ c, schema.outerColumn m name = .ok c := by
  obtain ⟨lead, hlead⟩ := Option.isSome_iff_exists.1 hlead
  exact ⟨_, (outerColumn_eq_ok_iff_of_member? hx).2 ⟨lead, hlead, rfl⟩⟩

theorem exists_outerColumn_pk (hschema : schema.Coherent) (hm : m ∈ schema.models) :
    ∃ c, schema.outerColumn m "pk" = .ok c := by
  obtain ⟨key, _, hkey, _, hlead⟩ := hschema.key m hm
  exact exists_outerColumn (hschema.member?_pk hm hkey) hlead

/-- A relation that a reference or a visible link of the model makes can be followed. -/
theorem exists_openLink_forward (hschema : schema.Coherent) (hm : m ∈ schema.models)
    (hx : .forward owner f ∈ schema.members m)
    (hr : (schema.relationOf m (.forward owner f)).result = .ok (some r)) :
    ∃ related join outer, schema.openLink r = .ok (related, join) ∧
      schema.outerColumn m r.outerKey = .ok outer := by
  obtain ⟨target, hlinked, hgeneric, hrelated, hkind⟩ := forward_of_relationOf hr
  obtain ⟨howner, hf⟩ := mem_of_forward_mem_members hgeneric hx
  have hownerMem := mem_of_mem_lineage hm howner
  have htarget := mem_of_linked? hownerMem hlinked
  have hfind : schema.find? r.related = some target := hrelated ▸ hschema.find_key target htarget
  have hopen : (∃ join, schema.resolveNames target (Text.doublePieces r.joinKey) = .ok join) ∧
      ∃ outer, schema.outerColumn m r.outerKey = .ok outer := by
    rcases hkind with ⟨hlinks, hvisible, hjoinKey, houterKey⟩ |
      ⟨hlinks, hcolumn, field, hfield, hjoinKey, houterKey⟩
    · rw [hjoinKey, houterKey]
      obtain ⟨hplain, _⟩ := hschema.links owner hownerMem f hf hlinks hvisible target hlinked
      obtain ⟨_, hback⟩ := hschema.pairs owner hownerMem f hf hlinks hvisible target hlinked
      have hmember := hschema.member?_queryName hownerMem hf hlinks hvisible hlinked
      exact ⟨exists_resolveNames hplain hmember hback, exists_outerColumn_pk hschema hm⟩
    · rw [hjoinKey, houterKey]
      obtain ⟨hheld, hlead⟩ := hschema.targets owner hownerMem f hf hlinks target hlinked field
        (by rw [hfield]; rfl)
      have hfieldMem := mem_ownFields_of_targetField hschema htarget hcolumn hheld hfield
      have hconcrete := hschema.concrete_mem target htarget
      have hplain := (hschema.names _ (mem_of_mem_lineage htarget hconcrete) field hfieldMem).1
      have hmember := hschema.member?_name htarget hconcrete hfieldMem
      have hcolumnMember := hschema.member?_columnName hm howner hf
      exact ⟨exists_resolveNames hplain hmember hlead, exists_outerColumn hcolumnMember
        (isSome_lead?_of_hasColumn hcolumn hlinked hfield)⟩
  obtain ⟨⟨join, hjoin⟩, outer, houter⟩ := hopen
  exact ⟨target, join, outer, openLink_eq_ok_iff.2 ⟨hfind, hjoin⟩, houter⟩

theorem exists_openLink_reverse (hschema : schema.Coherent) (hm : m ∈ schema.models)
    (hx : .reverse source f target ∈ schema.members m)
    (hkeyed : f.hasColumn = true ∨ f.isLinks = true)
    (hr : (schema.relationOf m (.reverse source f target)).result = .ok (some r)) :
    ∃ related join outer, schema.openLink r = .ok (related, join) ∧
      schema.outerColumn m r.outerKey = .ok outer := by
  have hvisible := hidesBack_of_relationOf hr
  obtain ⟨hrelated, hjoinKey, hkind⟩ := reverse_of_relationOf hr
  obtain ⟨base, hbase, hproxy, hsource, hf, hlinked, hconcrete⟩ := mem_of_reverse_mem_members hx
  have hfind : schema.find? r.related = some source := hrelated ▸ hschema.find_key source hsource
  have hbaseMem := mem_of_mem_lineage hm hbase
  have hplain := (hschema.names source hsource f hf).1
  have hmember := hschema.member?_name hsource (hschema.self_mem source hsource) hf
  have hopen : (∃ join, schema.resolveNames source (Text.doublePieces r.joinKey) = .ok join) ∧
      ∃ outer, schema.outerColumn m r.outerKey = .ok outer := by
    rw [hjoinKey]
    rcases hkind with ⟨hlinks, houterKey⟩ | ⟨hlinks, field, hfield, houterKey⟩
    · rw [houterKey]
      obtain ⟨hforth, _⟩ := hschema.pairs source hsource f hf hlinks hvisible target hlinked
      exact ⟨exists_resolveNames hplain hmember hforth, exists_outerColumn_pk hschema hm⟩
    · rw [houterKey]
      have hcolumn : f.hasColumn = true := hkeyed.resolve_right (by simp [hlinks])
      obtain ⟨hheld, hlead⟩ := hschema.targets source hsource f hf hlinks target hlinked field
        (by rw [hfield]; rfl)
      have htarget := mem_of_linked? hsource hlinked
      have hfieldMem := mem_ownFields_of_targetField hschema htarget hcolumn hheld hfield
      rw [concrete_eq_of_not_proxy hschema hbaseMem hproxy hconcrete] at hfieldMem hlead
      have hforth := isSome_lead?_of_hasColumn hcolumn hlinked hfield
      have hcolumnMember := hschema.member?_columnName hm hbase hfieldMem
      exact ⟨exists_resolveNames hplain hmember hforth, exists_outerColumn hcolumnMember hlead⟩
  obtain ⟨⟨join, hjoin⟩, outer, houter⟩ := hopen
  exact ⟨source, join, outer, openLink_eq_ok_iff.2 ⟨hfind, hjoin⟩, houter⟩

theorem exists_openLink (hschema : schema.Coherent) (hm : m ∈ schema.models)
    (hx : x ∈ schema.members m) (hkeyed : x.isKeyed = true)
    (hr : (schema.relationOf m x).result = .ok (some r)) :
    ∃ related join outer, schema.openLink r = .ok (related, join) ∧
      schema.outerColumn m r.outerKey = .ok outer := by
  cases x with
  | forward owner f => exact exists_openLink_forward hschema hm hx hr
  | reverse source f target =>
      exact exists_openLink_reverse hschema hm hx (Bool.or_eq_true_iff.1 hkeyed) hr

end Leads

end Schema

namespace Stock

def item : Model :=
  { key := "stock.Item", app := "stock", name := "Item", table := "items"
    fields := [{ name := "id", kind := .column .integer "AutoField", isKey := true },
      { name := "code", kind := .column .text "CharField" },
      { name := "stores", kind := .links "Store" none (some "Listing"), relatedName := "items" }]
    lineage := ["stock.Item"], concrete := "stock.Item" }

def store : Model :=
  { key := "stock.Store", app := "stock", name := "Store", table := "stores"
    fields := [{ name := "id", kind := .column .integer "AutoField", isKey := true }]
    lineage := ["stock.Store"], concrete := "stock.Store" }

/-- The pairs of items and stores, which hold the keys of items or else another field of theirs. -/
def listing (held : Option String) : Model :=
  { key := "stock.Listing", app := "stock", name := "Listing", table := "listings"
    fields := [{ name := "id", kind := .column .integer "AutoField", isKey := true },
      { name := "item", kind := .reference false "Item" held false },
      { name := "store", kind := .reference false "Store" none false }]
    lineage := ["stock.Listing"], concrete := "stock.Listing" }

def schema (held : Option String) : Schema :=
  { models := [item, store, listing held], apps := ["stock"] }

def shelf : Database :=
  ⟨fun key =>
    if key = "stock.Item" then [[("id", .int 1), ("code", .text "ax")]]
    else if key = "stock.Store" then [[("id", .int 2)]]
    else if key = "stock.Listing" then
      [[("id", .int 3), ("item_id", .text "ax"), ("store_id", .int 2)]]
    else []⟩

theorem coherent {held : Option String} (h : held ∈ [none, some "code"]) :
    (schema held).Coherent := by
  obtain rfl | rfl : held = none ∨ held = some "code" := by simpa using h
  all_goals
    constructor
    · constructor <;> decide +kernel
    all_goals decide +kernel

def stores : Field := item.fields[2]

def toStores : Relation :=
  { name := "stores", related := "stock.Store", relatedLabel := "stock.store"
    storageName := "stores", joinKey := "items", outerKey := "pk", kind := .manyToMany }

def toItems : Relation :=
  { name := "items", related := "stock.Item", relatedLabel := "stock.item"
    storageName := "items", joinKey := "stores", outerKey := "pk", kind := .manyToMany }

/-- The item is in the store, whatever column of it the pair holds. -/
theorem linked_stores : (schema (some "code")).Linked shelf (.forward item stores)
    [("id", .int 1), ("code", .text "ax")] [("id", .int 2)] := by
  refine ⟨store, listing (some "code"), (listing (some "code")).fields[1],
    (listing (some "code")).fields[2], by decide +kernel, by decide +kernel, ?_⟩
  refine ⟨[("id", .int 3), ("item_id", .text "ax"), ("store_id", .int 2)], by decide +kernel, ?_,
    ?_⟩
  · exact ⟨_, item, rfl, by decide +kernel⟩
  · exact ⟨_, store, rfl, by decide +kernel⟩

end Stock

end RowFilter
