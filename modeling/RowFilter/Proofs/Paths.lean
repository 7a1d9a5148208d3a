import RowFilter.Proofs.Linked
import RowFilter.Proofs.Narrowing
import RowFilter.Query.Clause

/-!
Paths taken apart. Names joined by doubled underscores are found again in the path if none of them
has a doubled underscore or ends in one underscore. So a lookup after the name of a column is read
as a lookup, and a clause on a column of the rows themselves looks at no others; only where the
column holds a reference could the lookup be taken for a name of the model that it leads to.
-/

namespace RowFilter

namespace Text

structure IsName (s : String) : Prop where
  notDoubled : ¬ ['_', '_'] <:+: s.toList
  getLast? : s.toList.getLast? ≠ some '_'

instance (s : String) : Decidable (IsName s) :=
  decidable_of_iff (¬ ['_', '_'] <:+: s.toList ∧ s.toList.getLast? ≠ some '_')
    ⟨fun h => ⟨h.1, h.2⟩, fun h => ⟨h.notDoubled, h.getLast?⟩⟩

variable {c : Char} {cs rest : List Char}

theorem doublePiecesAux_ne_nil (cs : List Char) : doublePiecesAux cs ≠ [] := by
  fun_cases doublePiecesAux cs <;> simp_all

theorem doublePiecesAux_cons (h : ¬ ['_', '_'] <+: c :: cs) :
    doublePiecesAux (c :: cs) = (doublePiecesAux cs).modifyHead (c :: ·) := by
  rw [doublePiecesAux]
  · cases hpieces : doublePiecesAux cs with
    | nil => exact absurd hpieces (doublePiecesAux_ne_nil cs)
    | cons piece rest => rfl
  · rintro more rfl rfl
    exact h ⟨more, rfl⟩

theorem doublePiecesAux_of_not_infix (h : ¬ ['_', '_'] <:+: cs) : doublePiecesAux cs = [cs] := by
  induction cs with
  | nil => rfl
  | cons c cs ih =>
      have hrest : ¬ ['_', '_'] <:+: cs := fun hcs => h (hcs.trans (List.suffix_cons c cs).isInfix)
      rw [doublePiecesAux_cons fun hstarts => h hstarts.isInfix, ih hrest]
      rfl

/-- A doubled underscore ends the first piece if there is none before it and no single one just
before it. -/
theorem doublePiecesAux_append (h : ¬ ['_', '_'] <:+: cs) (hlast : cs.getLast? ≠ some '_') :
    doublePiecesAux (cs ++ '_' :: '_' :: rest) = cs :: doublePiecesAux rest := by
  induction cs with
  | nil => rfl
  | cons c cs ih =>
      have hrest : ¬ ['_', '_'] <:+: cs := fun hcs => h (hcs.trans (List.suffix_cons c cs).isInfix)
      have hlast' : cs.getLast? ≠ some '_' := by
        intro hcs
        refine hlast ?_
        rw [List.getLast?_cons, hcs]
        rfl
      have hstarts : ¬ ['_', '_'] <+: c :: (cs ++ '_' :: '_' :: rest) := by
        rintro ⟨more, hmore⟩
        obtain ⟨rfl, hafter⟩ := List.cons.inj hmore
        cases cs with
        | nil => exact hlast rfl
        | cons d cs =>
            obtain ⟨rfl, _⟩ := List.cons.inj hafter
            exact h ⟨[], cs, rfl⟩
      rw [List.cons_append, doublePiecesAux_cons hstarts, ih hrest hlast']
      rfl

theorem IsName.doublePieces {s : String} (h : IsName s) : doublePieces s = [s] := by
  rw [Text.doublePieces, doublePiecesAux_of_not_infix h.notDoubled]
  simp

theorem doublePieces_intercalate {names : List String} (hne : names ≠ [])
    (h : ∀ name ∈ names, IsName name) : doublePieces ("__".intercalate names) = names := by
  induction names with
  | nil => exact absurd rfl hne
  | cons name names ih =>
      obtain ⟨hname, hnames⟩ := List.forall_mem_cons.1 h
      by_cases hnil : names = []
      · rw [hnil, String.intercalate_singleton, hname.doublePieces]
      · have hcut : doublePieces (name ++ "__" ++ "__".intercalate names) =
            name :: doublePieces ("__".intercalate names) := by
          have hchars : (name ++ "__" ++ "__".intercalate names).toList =
              name.toList ++ '_' :: '_' :: ("__".intercalate names).toList := by
            simp [String.toList_append]
          rw [doublePieces, hchars, doublePiecesAux_append hname.notDoubled hname.getLast?]
          simp [doublePieces]
        rw [String.intercalate_cons_of_ne_nil hnil, hcut, ih hnil hnames]

end Text

def Clause.IsOwn (schema : Schema) (m : Model) (c : Clause) : Prop :=
  ∀ found, schema.clauseCondition m c = .ok found → found.IsOwn

def Clause.column : Clause → String
  | compare column _ _ | isIn column _ | between column _ | null column | notNull column => column

def clauseLookups : List String :=
  ["exact", "gt", "gte", "lt", "lte", "contains", "in", "range", "isnull"]

namespace Schema

variable {schema : Schema} {m owner target : Model} {f : Field} {path lookup : String}
  {lead : Lead} {x : Member} {column : ColumnRef} {found : Condition}
  {build : ColumnRef → Except Fault Test}

/-- Whether a path is a name of a column of the rows of a model, and no lookup that clauses put
after it is a name of another model. -/
def IsOwnColumn (schema : Schema) (m : Model) (path : String) : Prop :=
  Text.IsName path ∧ ∃ owner f, schema.member? m path = some (.forward owner f) ∧
    f.hasColumn = true ∧ ∀ target ∈ schema.linked? owner f, ∀ lookup ∈ clauseLookups,
      schema.member? target lookup = none

theorem linked?_of_lead?_target (hf : f.hasColumn = true)
    (h : schema.lead? (.forward owner f) = some lead) (htarget : lead.target = some target) :
    schema.linked? owner f = some target := by
  rw [lead?] at h
  split at h
  · obtain rfl := Option.some.inj h
    cases htarget
  · obtain ⟨⟨hop, found⟩, hhop, h⟩ := Option.bind_eq_some_iff.1 h
    obtain rfl := Option.some.inj h
    obtain rfl := Option.some.inj htarget
    exact (hopTo?_eq_some_iff.1 hhop).1
  · next hkind =>
    rw [Field.hasColumn, hkind] at hf
    cases hf
  · cases h

/-- A name that nothing known follows leads where its member does, and leaves over the rest. -/
theorem follow?_pair (hmember : schema.member? m path = some x) (hlead : schema.lead? x = some lead)
    (hfree : ∀ target, lead.target = some target → schema.member? target lookup = none) :
    schema.follow? [] m [path, lookup] = some ⟨lead.column, lead.typeName, [lookup]⟩ := by
  rw [follow?, hmember]
  simp only [Option.bind_eq_bind, Option.bind_some, hlead, List.nil_append]
  cases htarget : lead.target with
  | none => rfl
  | some target =>
      have hstop : schema.follow? lead.column.hops target [lookup] = none := by
        rw [follow?, hfree target htarget]
        rfl
      simp only [hstop, Option.getD_none]

theorem doublePieces_lookup (hname : Text.IsName path) (hlookup : lookup ∈ clauseLookups) :
    Text.doublePieces (path ++ "__" ++ lookup) = [path, lookup] := by
  have hnames : ∀ name ∈ [path, lookup], Text.IsName name := by
    have hlookups : ∀ name ∈ clauseLookups, Text.IsName name := by decide
    rintro name hmem
    rcases List.mem_cons.1 hmem with rfl | hmem
    · exact hname
    · exact hlookups name (List.mem_singleton.1 hmem ▸ hlookup)
  rw [← Text.doublePieces_intercalate (List.cons_ne_nil path [lookup]) hnames,
    String.intercalate_cons_cons, String.intercalate_singleton]

theorem resolve_eq_follow (hpath : schema.IsOwnColumn m path) (hlookup : lookup ∈ clauseLookups)
    (hmember : schema.member? m path = some x) (hlead : schema.lead? x = some lead) :
    schema.resolve m path lookup =
      Lookup.follow [lookup] lead.typeName lead.column.trimmed [lookup] := by
  obtain ⟨hname, owner, f, hforward, hf, hfree⟩ := hpath
  obtain rfl := Option.some.inj (hmember.symm.trans hforward)
  rw [resolve, doublePieces_lookup hname hlookup, resolveNames,
    follow?_pair hmember hlead fun target htarget =>
      hfree target (linked?_of_lead?_target hf hlead htarget) lookup hlookup]

theorem isOwn_of_resolve (hpath : schema.IsOwnColumn m path) (hlookup : lookup ∈ clauseLookups)
    (h : schema.resolve m path lookup = .ok column) : column.IsOwn column.column := by
  obtain ⟨hname, owner, f, hmember, hf, _⟩ := id hpath
  cases hlead : schema.lead? (.forward owner f) with
  | none =>
      rw [resolve, doublePieces_lookup hname hlookup, resolveNames, follow?, hmember] at h
      simp [hlead] at h
  | some lead =>
      rw [resolve_eq_follow hpath hlookup hmember hlead, Lookup.follow] at h
      split at h
      · rw [← Except.ok.inj h]
        have hown := isOwn_of_lead? hf hlead
        exact ⟨hown.hops, rfl, hown.part⟩
      · cases h

theorem isOwn_of_onColumn (hpath : schema.IsOwnColumn m path) (hlookup : lookup ∈ clauseLookups)
    (h : schema.onColumn m path lookup build = .ok found) : found.IsOwn := by
  obtain ⟨column, hcolumn, h⟩ := Except.bind_eq_ok_iff.1 h
  obtain ⟨t, _, h⟩ := Except.bind_eq_ok_iff.1 h
  rw [← Except.ok.inj h]
  intro touch htouch
  obtain rfl := Option.some.inj htouch
  exact List.length_eq_zero_iff.2 (isOwn_of_resolve hpath hlookup hcolumn).hops

theorem isOwn_of_comparison {operator operand : Value} (hpath : schema.IsOwnColumn m path)
    (h : schema.comparison m path operator operand = .ok found) : found.IsOwn := by
  unfold comparison at h
  split at h
  · cases h
  · cases h
  · obtain ⟨column, hcolumn, h⟩ := Except.bind_eq_ok_iff.1 h
    obtain ⟨x, _, h⟩ := Except.bind_eq_ok_iff.1 h
    have hhops := (isOwn_of_resolve hpath (by decide) hcolumn).hops
    rw [← Except.ok.inj h, ColumnRef.denial, hhops]
    intro touch htouch
    obtain rfl := Option.some.inj htouch
    exact List.length_eq_zero_iff.2 hhops
  · split at h
    · next c _ =>
      split at h
      · rw [← Except.ok.inj h]
        intro touch htouch
        cases htouch
      · exact isOwn_of_onColumn hpath (by cases c <;> decide) h
    · split at h
      · cases h
      · split at h
        · rw [← Except.ok.inj h]
          intro touch htouch
          cases htouch
        · exact isOwn_of_onColumn hpath (by decide) h
  · cases h

end Schema

theorem Clause.isOwn_of_isOwnColumn {schema : Schema} {m : Model} {c : Clause}
    (hpath : ∀ path, fieldPath m.table c.column = .ok path → schema.IsOwnColumn m path) :
    c.IsOwn schema m := by
  intro found h
  cases c with
  | compare column operator operand =>
      obtain ⟨path, hcut, h⟩ := Except.bind_eq_ok_iff.1 h
      exact Schema.isOwn_of_comparison (hpath path hcut) h
  | isIn column operands =>
      obtain ⟨path, hcut, h⟩ := Except.bind_eq_ok_iff.1 h
      obtain ⟨items, _, h⟩ := Except.bind_eq_ok_iff.1 h
      exact Schema.isOwn_of_onColumn (hpath path hcut) (by decide) h
  | between column bounds =>
      obtain ⟨items, _, h⟩ := Except.bind_eq_ok_iff.1 h
      split at h
      · obtain ⟨path, hcut, h⟩ := Except.bind_eq_ok_iff.1 h
        exact Schema.isOwn_of_onColumn (hpath path hcut) (by decide) h
      · cases h
  | null column =>
      obtain ⟨path, hcut, h⟩ := Except.bind_eq_ok_iff.1 h
      exact Schema.isOwn_of_onColumn (hpath path hcut) (by decide) h
  | notNull column =>
      obtain ⟨path, hcut, h⟩ := Except.bind_eq_ok_iff.1 h
      exact Schema.isOwn_of_onColumn (hpath path hcut) (by decide) h

end RowFilter
