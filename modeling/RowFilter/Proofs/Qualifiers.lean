import RowFilter.Proofs.ErrorSources
import RowFilter.Proofs.Exists
import RowFilter.Proofs.Spellings

/-!
Qualified columns. Before the last dot of a column stands the name of a table, which may have dots
itself, and behind it the name of the column. A query cuts off the name of its own table and turns
down every other one. The bounds of a range are counted before anything is cut off, and an operator
is looked at after, so all this is said of clauses that have what they take; and a request that
could be read makes no others.
-/

namespace RowFilter

/-- Whether a column is the name of a table, a dot and a name that has no dots. -/
structure IsQualified (table name column : String) : Prop where
  column_eq : column = table ++ "." ++ name
  name_ne : name ≠ ""
  name_undotted : '.' ∉ name.toList

namespace Clause

def withColumn (column : String) : Clause → Clause
  | compare _ operator operand => .compare column operator operand
  | isIn _ operands => .isIn column operands
  | between _ bounds => .between column bounds
  | null _ => .null column
  | notNull _ => .notNull column

def IsComplete : Clause → Prop
  | compare _ operator _ => ∃ token ∈ Rejection.comparators, operator = .text token
  | between _ bounds => ∃ low high, bounds.items = .ok [low, high]
  | isIn _ _ | null _ | notNull _ => True

theorem withColumn_column (c : Clause) : c.withColumn c.column = c := by
  cases c <;> rfl

end Clause

def Query.Accepts (schema : Schema) (q : Query) (c : Clause) : Prop :=
  ∀ registry r, ((Step.clause c).apply schema q registry).1.result ≠ .error (.rejected r)

/-! ### Names of tables -/

section Names

variable {table name column : String}

theorem fieldPath_of_not_mem (table : String) (h : '.' ∉ column.toList) :
    fieldPath table column = .ok column := by
  rw [fieldPath, Text.lastCut_of_not_mem h]

theorem lastCut_qualified (table : String) (h : '.' ∉ column.toList) :
    Text.lastCut '.' (table ++ "." ++ column) = some (table, column) := by
  have hchars : (table ++ "." ++ column).toList = table.toList ++ '.' :: column.toList := by
    simp [String.toList_append]
  rw [Text.lastCut, hchars, Text.lastCutAux_append h]
  simp

theorem IsQualified.fieldPath_eq (h : IsQualified table name column) :
    fieldPath table column = .ok name := by
  rw [fieldPath, h.column_eq, lastCut_qualified table h.name_undotted]
  exact if_pos ⟨rfl, h.name_ne⟩

/-- With nothing after the name of a table there is no column, and none of another table. -/
theorem fieldPath_foreign (hdot : '.' ∉ column.toList) {other : String}
    (h : column = "" ∨ table ≠ other) : fieldPath other (table ++ "." ++ column) =
      .error (.rejected (.foreignColumn (table ++ "." ++ column) other)) := by
  rw [fieldPath, lastCut_qualified table hdot]
  refine if_neg ?_
  rintro ⟨htable, hne⟩
  exact h.elim hne fun hother => hother htable

theorem exists_qualified (h : '.' ∈ column.toList) :
    ∃ table name, column = table ++ "." ++ name ∧ '.' ∉ name.toList := by
  -- the last dot is the first one from the end
  obtain ⟨after, before, hchars, hafter⟩ :=
    List.eq_append_cons_of_mem (List.mem_reverse.2 h)
  refine ⟨.ofList before.reverse, .ofList after.reverse, ?_, by simpa using hafter⟩
  rw [← String.toList_inj, ← List.reverse_inj, hchars]
  simp [String.toList_append]

/-- A column of no table but another one's, or of no name, is turned down. -/
theorem fieldPath_of_not_isQualified (hdot : '.' ∈ column.toList)
    (h : ¬ ∃ name, IsQualified table name column) :
    fieldPath table column = .error (.rejected (.foreignColumn column table)) := by
  obtain ⟨other, name, rfl, hname⟩ := exists_qualified hdot
  refine fieldPath_foreign hname ?_
  by_contra hboth
  obtain ⟨hne, hother⟩ := not_or.1 hboth
  obtain rfl := not_not.1 hother
  exact h ⟨name, rfl, hne, hname⟩

end Names

/-! ### Clauses -/

theorem Comparator.ofToken?_eq_none_iff {token : String} (h : token ∈ Rejection.comparators) :
    ofToken? token = none ↔ token = searchToken ∨ token = "<>" := by
  revert token
  decide

theorem Operator.token_mem_comparators {o : Operator} (h : o ∈ comparisons) :
    o.token ∈ Rejection.comparators := by
  revert o
  decide

theorem Schema.failsWith_comparison_of_mem (schema : Schema) (m : Model) (path : String)
    {token : String} (h : token ∈ Rejection.comparators) (operand : Value) :
    FailsWith Fault.IsForeign (schema.comparison m path (.text token) operand) := by
  by_cases hother : token = "<>"
  · obtain rfl := hother
    exact (schema.failsWith_resolveNames m _).bind fun c =>
      (c.failsWith_readOperand false operand).bind fun _ => .ok _
  · unfold comparison
    -- the operator is a text, so two cases are no cases at all
    split
    · next heq => cases heq
    · next heq => cases heq
    · next heq => exact absurd (Value.text.inj heq) hother
    · next heq =>
      obtain rfl := Value.text.inj heq
      split
      · split
        · exact .ok _
        · exact schema.failsWith_onColumn m path _ fun c =>
            (c.failsWith_readOperand _ operand).bind fun _ => .ok _
      · next hnone =>
        have hsearch := ((Comparator.ofToken?_eq_none_iff h).1 hnone).resolve_right hother
        rw [if_neg (not_not.2 hsearch)]
        split
        · exact .ok _
        · exact schema.failsWith_onColumn m path _ fun _ => .ok _
    · next htext => exact absurd rfl (htext token)

namespace Clause.IsComplete

variable {m : Model} {c : Clause} {column other name : String} {fault : Fault}

theorem clauseCondition_eq (h : c.IsComplete) (schema : Schema)
    (hpath : fieldPath m.table column = fieldPath m.table other) :
    schema.clauseCondition m (c.withColumn column) =
      schema.clauseCondition m (c.withColumn other) := by
  cases c with
  | between before bounds =>
      -- the bounds are counted before the column is cut, so there have to be two of them
      obtain ⟨low, high, hitems⟩ := h
      simp only [Clause.withColumn, Schema.clauseCondition, hitems, hpath]
      rfl
  | _ => simp only [Clause.withColumn, Schema.clauseCondition, hpath]

/-- A column that has no path is turned down before anything else is looked at. -/
theorem clauseCondition_eq_error (h : c.IsComplete) (schema : Schema)
    (hpath : fieldPath m.table column = .error fault) :
    schema.clauseCondition m (c.withColumn column) = .error fault := by
  cases c with
  | between before bounds =>
      obtain ⟨low, high, hitems⟩ := h
      simp only [Clause.withColumn, Schema.clauseCondition, hitems, hpath]
      rfl
  | _ =>
      simp only [Clause.withColumn, Schema.clauseCondition, hpath]
      rfl

theorem failsWith_clauseCondition (h : c.IsComplete) (schema : Schema) (m : Model)
    (hdot : '.' ∉ column.toList) :
    FailsWith Fault.IsForeign (schema.clauseCondition m (c.withColumn column)) := by
  have hpath := fieldPath_of_not_mem m.table hdot
  cases c with
  | compare before operator operand =>
      obtain ⟨token, htoken, rfl⟩ := h
      simp only [Clause.withColumn, Schema.clauseCondition, hpath]
      exact schema.failsWith_comparison_of_mem m column htoken operand
  | isIn before operands =>
      simp only [Clause.withColumn, Schema.clauseCondition, hpath]
      exact operands.failsWith_items.bind fun items =>
        schema.failsWith_onColumn m column _ fun c => (c.failsWith_readOperands items).map _
  | between before bounds =>
      obtain ⟨low, high, hitems⟩ := h
      simp only [Clause.withColumn, Schema.clauseCondition, hitems, hpath]
      exact schema.failsWith_onColumn m column _ fun c =>
        (c.failsWith_readOperand false low).bind fun _ =>
          (c.failsWith_readOperand false high).bind fun _ => .ok _
  | null before =>
      simp only [Clause.withColumn, Schema.clauseCondition, hpath]
      exact schema.failsWith_onColumn m column _ fun _ => .ok _
  | notNull before =>
      simp only [Clause.withColumn, Schema.clauseCondition, hpath]
      exact schema.failsWith_onColumn m column _ fun _ => .ok _

/-- A clause on a column with the name of the table is the clause on the column without. -/
theorem clauseCondition_of_isQualified (h : c.IsComplete) (schema : Schema)
    (hqualified : IsQualified m.table name c.column) :
    schema.clauseCondition m c = schema.clauseCondition m (c.withColumn name) := by
  have heq := h.clauseCondition_eq schema
    (hqualified.fieldPath_eq.trans (fieldPath_of_not_mem m.table hqualified.name_undotted).symm)
  rwa [withColumn_column] at heq

theorem clauseCondition_of_not_isQualified (h : c.IsComplete) (schema : Schema)
    (hdot : '.' ∈ c.column.toList) (hforeign : ¬ ∃ name, IsQualified m.table name c.column) :
    schema.clauseCondition m c = .error (.rejected (.foreignColumn c.column m.table)) := by
  have herror := h.clauseCondition_eq_error schema (fieldPath_of_not_isQualified hdot hforeign)
  rwa [withColumn_column] at herror

end Clause.IsComplete

namespace Request

variable {settings : Settings} {name : String} {v : Value} {r : Request}

theorem withColumn_clause (r : Request) (column other : String) :
    (r.clause column).withColumn other = r.clause other := by
  obtain ⟨operator, operand⟩ := r
  cases operator <;> rfl

theorem length_tokens_of_read (h : read settings name v = .ok r)
    (hbetween : r.operator = .between) : r.operand.tokens.length = 2 := by
  unfold read at h
  split at h
  · split at h
    · cases h
    · cases h
    · split at h
      · cases h
      · obtain ⟨_, hcount, h⟩ := Except.bind_eq_ok_iff.1 h
        obtain rfl := Except.ok.inj h
        dsimp only at hbetween ⊢
        rw [hbetween, checkCount] at hcount
        obtain ⟨tokens, htokens, hcount⟩ := Except.bind_eq_ok_iff.1 hcount
        rw [(splitValues_eq_ok_iff.1 htokens).2]
        by_contra hne
        dsimp only at hcount
        rw [if_neg hne] at hcount
        cases hcount
  · cases h

theorem isComplete_clause (h : read settings name v = .ok r) (column : String) :
    (r.clause column).IsComplete := by
  obtain ⟨operator, operand⟩ := r
  cases operator with
  | between =>
      obtain ⟨low, high, hpair⟩ := List.length_eq_two.1 (length_tokens_of_read h rfl)
      refine ⟨.text low, .text high, ?_⟩
      rw [hpair]
      rfl
  | isIn => exact trivial
  | null => exact trivial
  | notNull => exact trivial
  | contains => exact ⟨searchToken, by decide, rfl⟩
  | _ => exact ⟨_, Operator.token_mem_comparators (by simp [Operator.comparisons]), rfl⟩

end Request

section Asked

variable {schema : Schema} {settings : Settings} {m : Model} {name column : String} {v : Value}
  {r : Request} {fault : Fault}

theorem clauseCondition_qualified (schema : Schema) (m : Model)
    (hread : Request.read settings name v = .ok r) (hne : column ≠ "")
    (h : '.' ∉ column.toList) :
    schema.clauseCondition m (r.clause (m.table ++ "." ++ column)) =
      schema.clauseCondition m (r.clause column) := by
  have hqualified : IsQualified m.table column (m.table ++ "." ++ column) := ⟨rfl, hne, h⟩
  have heq := (Request.isComplete_clause hread column).clauseCondition_eq schema
    (hqualified.fieldPath_eq.trans (fieldPath_of_not_mem m.table h).symm)
  rwa [Request.withColumn_clause, Request.withColumn_clause] at heq

/-- Nothing that could be read is turned down for a column without a dot. -/
theorem Schema.failsWith_clauseCondition_asked (schema : Schema) (m : Model)
    (hread : Request.read settings name v = .ok r) (hcolumn : '.' ∉ column.toList) :
    FailsWith Fault.IsForeign (schema.clauseCondition m (r.clause column)) := by
  have hfails := (Request.isComplete_clause hread column).failsWith_clauseCondition schema m hcolumn
  rwa [Request.withColumn_clause] at hfails

theorem Schema.clauseCondition_of_fieldPath_eq_error
    (hread : Request.read settings name v = .ok r)
    (h : fieldPath m.table column = .error fault) :
    schema.clauseCondition m (r.clause column) = .error fault := by
  have herror := (Request.isComplete_clause hread column).clauseCondition_eq_error schema h
  rwa [Request.withColumn_clause] at herror

end Asked

/-! ### Queries -/

theorem Except.map_eq_error_iff {α β : Type} {f : α → β} {x : Except Fault α} {e : Fault} :
    f <$> x = .error e ↔ x = .error e := by
  cases x <;> simp [Functor.map, Except.map]

theorem Step.apply_clause (schema : Schema) (q : Query) (c : Clause) :
    (clause c).apply schema q =
      Registering.lift (.ofExcept (q.narrow <$> schema.clauseCondition q.model c)) := by
  funext registry
  rw [apply, condition]
  show Registering.andThen _ _ registry = _
  rw [Registering.andThen]
  cases schema.clauseCondition q.model c <;> rfl

namespace Schema

variable {schema : Schema} {m target : Model} {x : Member} {r : Relation}

theorem exists_storageName_of_makes (hschema : schema.Coherent) (hm : m ∈ schema.models)
    (hx : schema.Makes m x r) :
    ∃ target, schema.find? r.related = some target ∧ r.storageName = target.table := by
  obtain ⟨hmem, hmade⟩ := hx
  cases x with
  | forward owner f =>
      obtain ⟨_, _, hgeneric, _⟩ := forward_of_relationOf hmade
      obtain ⟨seen, hlinked, hrelation⟩ := forwardRelation_of_relationOf hmade
      obtain ⟨_, hrelated, htable, _⟩ := of_forwardRelation hrelation
      have howner := (mem_of_forward_mem_members hgeneric hmem).1
      have hseen := mem_of_linked? (mem_of_mem_lineage hm howner) hlinked
      exact ⟨seen, hrelated ▸ hschema.find_key seen hseen, htable⟩
  | reverse source f seen =>
      obtain ⟨_, hrelated, htable, _⟩ := of_reverseRelation hmade
      obtain ⟨_, _, _, hsource, _⟩ := mem_of_reverse_mem_members hmem
      exact ⟨source, hrelated ▸ hschema.find_key source hsource, htable⟩

theorem storageName_eq_of_makes (hschema : schema.Coherent) (hm : m ∈ schema.models)
    (hx : schema.Makes m x r) (hfind : schema.find? r.related = some target) :
    r.storageName = target.table := by
  obtain ⟨found, hfound, htable⟩ := exists_storageName_of_makes hschema hm hx
  rw [htable, Option.some.inj (hfound.symm.trans hfind)]

end Schema

/-- The column that a filter by a relation builds is cut down to its second segment again. -/
theorem Filter.conditionOf_related {schema : Schema} {settings : Settings} {f : Filter}
    {e : Entity} {r : Relation} {target : Model} {rel segment : String} {v : Value}
    {asked : Request} (howner : f.owner = some e) (hrelation : e.relation? rel = some r)
    (hsegments : f.segments = [rel, segment]) (hfind : schema.find? r.related = some target)
    (htable : r.storageName = target.table) (hne : segment ≠ "")
    (hread : Request.read settings f.name v = .ok asked) (outer : Model) :
    f.conditionOf schema outer asked = (do
      let (_, join) ← .ofExcept (schema.openLink r)
      let inner ← .ofExcept (schema.clauseCondition target (asked.clause segment))
      schema.closeLink outer r target join [inner]) := by
  have hfound : f.relation rel = .ok r := by
    simp only [relation, howner, hrelation]
  simp only [conditionOf, hsegments, hfound]
  show (Outcome.ofExcept (schema.openLink r)).andThen _ =
    (Outcome.ofExcept (schema.openLink r)).andThen _
  -- where the link cannot be opened, nothing is asked of its rows either way
  cases hopen : schema.openLink r with
  | error fault => rfl
  | ok link =>
      obtain ⟨related, join⟩ := link
      obtain rfl := Option.some.inj (hfind.symm.trans (Schema.openLink_eq_ok_iff.1 hopen).1)
      show (Outcome.ofExcept (schema.clauseCondition _ _)).andThen _ = _
      rw [htable, clauseCondition_qualified schema _ hread hne
        (Text.pieces_dot_eq_pair_iff.1 hsegments).2.2]
      rfl

namespace Query

variable {schema : Schema} {q : Query} {c : Clause}

theorem accepts_iff : q.Accepts schema c ↔
    ∀ r, schema.clauseCondition q.model c ≠ .error (.rejected r) := by
  simp only [Accepts, Step.apply_clause]
  show (∀ (_ : EntityRegistry) r, q.narrow <$> schema.clauseCondition q.model c ≠ _) ↔ _
  simp only [ne_eq, Except.map_eq_error_iff]
  exact ⟨fun h => h {}, fun h _ => h⟩

theorem accepts_iff_exists (schema : Schema) (q : Query) (hc : c.IsComplete)
    (hdot : '.' ∈ c.column.toList) :
    q.Accepts schema c ↔ ∃ name, IsQualified q.model.table name c.column := by
  rw [accepts_iff]
  constructor
  · intro h
    by_contra hforeign
    exact h _ (hc.clauseCondition_of_not_isQualified schema hdot hforeign)
  · rintro ⟨name, h⟩ r hr
    rw [hc.clauseCondition_of_isQualified schema h] at hr
    cases hc.failsWith_clauseCondition schema q.model h.name_undotted _ hr

/-- A query takes a column with a dot exactly if it is the name of the query's table, a dot and a
name without dots, and does with it what it does with that name; every other one it turns down as
malformed, whatever dots the name of the table has. So the column that a filter by a relation builds
is taken by the query of related rows, and is the second segment there. -/
theorem accepts_iff_isQualified (schema : Schema) :
    (∀ (q : Query) (c : Clause), c.IsComplete → '.' ∈ c.column.toList →
      (q.Accepts schema c ↔ ∃ name, IsQualified q.model.table name c.column) ∧
      (∀ name, IsQualified q.model.table name c.column →
        (Step.clause c).apply schema q = (Step.clause (c.withColumn name)).apply schema q) ∧
      (¬ q.Accepts schema c → ∃ r : Rejection, r = .foreignColumn c.column q.model.table ∧
        r.detail.errorClass = .malformed ∧
        (Step.clause c).apply schema q = Registering.lift (.reject r))) ∧
    ∀ (m : Model) (e : Entity) (rel : String) (r : Relation), schema.Coherent →
      m ∈ schema.models → e.IsOf schema m → e.relation? rel = some r →
      ∃ target, schema.find? r.related = some target ∧
        ∀ (settings : Settings) (f : Filter) (segment : String) (v : Value) (asked : Request),
          f.owner = some e → f.segments = [rel, segment] → segment ≠ "" →
          Request.read settings f.name v = .ok asked →
          IsQualified target.table segment (r.storageName ++ "." ++ segment) ∧
          (∀ inner : Query, inner.model = target →
            inner.Accepts schema (asked.clause (r.storageName ++ "." ++ segment))) ∧
          ∀ outer, f.conditionOf schema outer asked = (do
            let (_, join) ← .ofExcept (schema.openLink r)
            let inner ← .ofExcept (schema.clauseCondition target (asked.clause segment))
            schema.closeLink outer r target join [inner]) := by
  refine ⟨fun q c hc hdot => ?_, fun m e rel r hschema hm he hr => ?_⟩
  · have haccepts := accepts_iff_exists schema q hc hdot
    refine ⟨haccepts, fun name h => ?_, fun h => ?_⟩
    · rw [Step.apply_clause, Step.apply_clause, hc.clauseCondition_of_isQualified schema h]
    · refine ⟨_, rfl, rfl, ?_⟩
      rw [Step.apply_clause,
        hc.clauseCondition_of_not_isQualified schema hdot (mt haccepts.2 h)]
      rfl
  · obtain ⟨x, hx⟩ := Schema.exists_makes_of_relationTable he.relations hr
    obtain ⟨target, hfind, htable⟩ := Schema.exists_storageName_of_makes hschema hm hx
    refine ⟨target, hfind, fun settings f segment v asked howner hsegments hne hread => ?_⟩
    obtain ⟨_, _, hdot⟩ := Text.pieces_dot_eq_pair_iff.1 hsegments
    have hqualified : IsQualified target.table segment (r.storageName ++ "." ++ segment) :=
      ⟨by rw [htable], hne, hdot⟩
    refine ⟨hqualified, ?_, Filter.conditionOf_related howner hr hsegments hfind htable hne hread⟩
    rintro inner rfl
    rw [accepts_iff, htable, clauseCondition_qualified schema inner.model hread hne hdot]
    intro r' hr'
    cases schema.failsWith_clauseCondition_asked inner.model hread hdot _ hr'

end Query

namespace Blog

def byAuthor : Filter :=
  { name := "author", column := "author.name"
    owner := some ⟨⟨0, 0⟩, "blog.Post", "blog.post", "posts", [("author", toAuthor)]⟩ }

/-- The query of all authors, in a table whose name has a dot. -/
def archived : Query :=
  .all { author with table := "archive.authors" }

end Blog

open Blog in
/-- What is before the last dot has to be all of the table's name. -/
theorem Query.accepts_iff_isQualified_blog :
    (Step.clause (.null "archive.authors.name")).apply schema archived =
      (Step.clause (.null "name")).apply schema archived ∧
    (Step.clause (.null "authors.name")).apply schema archived =
      Registering.lift (.reject (.foreignColumn "authors.name" "archive.authors")) ∧
    (Query.all author).Accepts schema (Request.clause "authors.name" ⟨.equal, .text "Bob"⟩) := by
  obtain ⟨hall, hrelated⟩ := accepts_iff_isQualified schema
  refine ⟨?_, ?_, ?_⟩
  · have hqualified : IsQualified archived.model.table "name" "archive.authors.name" :=
      ⟨by decide, by decide, by decide⟩
    exact (hall archived (.null "archive.authors.name") trivial (by decide)).2.1 "name" hqualified
  · obtain ⟨haccepts, _, hforeign⟩ := hall archived (.null "authors.name") trivial (by decide)
    have hother : ¬ ∃ name, IsQualified archived.model.table name "authors.name" := by
      rintro ⟨name, hname, _, _⟩
      have hlength : "authors.name".length = ("archive.authors" ++ "." ++ name).length :=
        congrArg String.length hname
      rw [String.length_append] at hlength
      have hlong : "authors.name".length < ("archive.authors" ++ ".").length := by decide
      omega
    obtain ⟨_, rfl, _, happly⟩ := hforeign (mt haccepts.1 hother)
    exact happly
  · have hpost : post ∈ schema.models := by decide +kernel
    obtain ⟨target, hfind, hfilter⟩ := hrelated post
      ⟨⟨0, 0⟩, "blog.Post", "blog.post", "posts", [("author", toAuthor)]⟩ "author" toAuthor
      coherent hpost ⟨rfl, by decide +kernel, relationTable_post⟩ rfl
    have hauthor : schema.find? toAuthor.related = some author := by decide +kernel
    obtain rfl := Option.some.inj (hauthor.symm.trans hfind)
    exact (hfilter (.ofProject .null) byAuthor "name"
      (.mapping [("operator", .text "="), ("value", .text "Bob")]) ⟨.equal, .text "Bob"⟩ rfl
      (by decide) (by decide) rfl).2.1 _ rfl

end RowFilter
