import RowFilter.Proofs.Qualifiers

/-!
Filters by related columns. A filter may be about a column of a model, or about the same column
seen from a model that has a relation to it. The first selects rows of the one model, the second
those rows of the other that are linked to one of them. Both make the same condition of a request:
the second puts the name of the table before the column, and it is cut off again. What remains to
compare are the joins, which the condition shares with those of the relation where it is nested.
-/

namespace RowFilter

theorem ColumnRef.verdict_ne_never {c : ColumnRef} {t : Test}
    (h : c.excludes t = false) : c.verdict t ≠ .ok .never := by
  rw [ColumnRef.verdict, h]
  split
  · simp
  · split_ifs <;> simp_all

namespace Filter

variable {schema : Schema} {settings : Settings} {m target : Model} {join outer : ColumnRef}
  {r : Relation} {name rel column : String} {e : Entity} {v : Value} {asked : Request}

theorem result_condition_of_not_mem {f : Filter} (schema : Schema) (settings : Settings)
    (m : Model) (hcolumn : '.' ∉ f.column.toList) (v : Value) :
    (f.condition schema settings m v).result = (do
      let asked ← Request.read settings f.name v
      let c ← schema.clauseCondition m (asked.clause f.column)
      let _ ← asked.operand.written
      return (asked, c)) := by
  have hsegments : f.segments = [f.column] := Text.pieces_of_not_mem hcolumn
  have hconditionOf (asked : Request) : (f.conditionOf schema m asked).result =
      schema.clauseCondition m (asked.clause f.column) := by
    rw [conditionOf, hsegments]
    rfl
  simp only [condition, hsegments, maxSegments, List.length_cons, List.length_nil, Nat.reduceAdd,
    Nat.reduceLT, if_false, Outcome.result_bind, Outcome.result_ofExcept, hconditionOf]
  rfl

theorem result_condition_direct (schema : Schema) (settings : Settings) (target : Model)
    (name : String) (hcolumn : '.' ∉ column.toList) (v : Value) :
    (Filter.condition schema settings { name, column, owner := none } target v).result = (do
      let asked ← Request.read settings name v
      let c ← schema.clauseCondition target (asked.clause column)
      let _ ← asked.operand.written
      return (asked, c)) :=
  result_condition_of_not_mem schema settings target hcolumn v

/-- By a relation a filter makes the condition on linked rows of what it makes without. -/
theorem result_condition_related (settings : Settings) (name : String) (v : Value)
    (hrel : '.' ∉ rel.toList) (hne : column ≠ "") (hcolumn : '.' ∉ column.toList)
    (hrelation : e.relation? rel = some r) (hstorage : r.storageName = target.table)
    (hopen : schema.openLink r = .ok (target, join))
    (houter : schema.outerColumn m r.outerKey = .ok outer) :
    (Filter.condition schema settings { name, column := rel ++ "." ++ column, owner := some e }
        m v).result =
      (fun made => (made.1, Condition.linked ⟨target, join, outer⟩ [made.2])) <$>
        (Filter.condition schema settings { name, column, owner := none } target v).result := by
  have hsegments : Filter.segments { name, column := rel ++ "." ++ column, owner := some e } =
      [rel, column] := Text.pieces_dot_eq_pair_iff.2 ⟨rfl, hrel, hcolumn⟩
  rw [result_condition_direct schema settings target name hcolumn]
  simp only [condition, hsegments, maxSegments, List.length_cons, List.length_nil, Nat.reduceAdd,
    Nat.reduceLT, if_false, Outcome.result_bind, Outcome.result_ofExcept]
  cases hread : Request.read settings name v with
  | error fault => rfl
  | ok asked =>
      have hfind := (Schema.openLink_eq_ok_iff.1 hopen).1
      dsimp only [bind, Except.bind]
      rw [conditionOf_related rfl hrelation hsegments hfind hstorage hne hread, hopen]
      cases schema.clauseCondition target (asked.clause column) with
      | error fault => rfl
      | ok c =>
          simp only [Schema.closeLink, houter]
          cases asked.operand.written <;> rfl

end Filter

namespace Condition

variable {db : Database} {row other : Row} {c : Condition} {link : Link}

theorem holds_eq_false_of_verdict (h : c.verdict = .ok .never) (db : Database) (row : Row) :
    c.holds db row = false := by
  cases c with
  | never => rfl
  | test column t =>
      have hexcludes : column.excludes t = true := by
        rw [verdict, ColumnRef.verdict] at h
        split at h
        · cases h
        · split_ifs at h with _ _ hexcludes
          · exact hexcludes
          · cases h
      simp [holds, ColumnRef.meets, ColumnRef.accepts, hexcludes]
  | absent a =>
      rw [verdict] at h
      cases hinner : a.inner.verdict a.test with
      | error e => rw [hinner] at h; cases h
      | ok found =>
          rw [hinner] at h
          cases found <;> cases h
  | linked link inner => exact absurd h verdict_linked_ne_never

/-- A condition on linked rows can be put to a database if the inner one can, or need not be. -/
theorem verdict_linked_singleton_iff : (linked link [c]).verdict = .ok (.asked false) ↔
    c.verdict = .ok .never ∨ c.verdict = .ok (.asked false) := by
  rw [verdict, verdictOfAll]
  cases c.verdict with
  | error e => simp [bind, Except.bind]
  | ok found =>
      cases found with
      | never => simp [bind, Except.bind, pure, Except.pure, Verdict.nested]
      | asked overflows =>
          simp [bind, Except.bind, pure, Except.pure, Verdict.nested, verdictOfAll, Verdict.and]

/-- Whether a row has the rows that a column which rows are joined by is looked for in, and those
that a condition needs. -/
def IsJoined (c : Condition) (db : Database) (join : ColumnRef) (other : Row) : Prop :=
  (join.touch true).IsIntact db other ∧ followHops db (join.touch true).path other ≠ [] ∧
    c.IsGrounded db other

theorem joins_all_narrow (m : Model) (c : Condition) :
    ((Query.all m).narrow c).joins = Joins.addAll [] c.touch?.toList := by
  cases h : c.touch? with
  | none => simp [Query.joins, Query.all, Query.narrow, h, Joins.ofTouches, Joins.addAll]
  | some t => simp [Query.joins, Query.all, Query.narrow, h, Joins.ofTouches, Joins.addAll]

theorem linkJoins_singleton (link : Link) (c : Condition) :
    linkJoins link [c] = Joins.addAll [] (link.join.touch true :: c.touch?.toList) := by
  cases h : c.touch? <;> simp [linkJoins, h, Joins.ofTouches, Joins.addAll]

/-- Next to those of a link the joins of a condition leave out no fewer rows. -/
theorem keep_joins_of_keep_linkJoins (h : (linkJoins link [c]).keep db other = true) :
    ((Query.all link.related).narrow c).joins.keep db other = true := by
  rw [linkJoins_singleton] at h
  rw [joins_all_narrow]
  cases htouch : c.touch? with
  | none => rfl
  | some t =>
      rw [htouch] at h
      exact Joins.keep_add_of_keep_addAll List.nodup_nil rfl (by simp) h

/-- They leave out no more of the rows that the link leads to, if the condition looks at no other
rows or the rows have all that is looked at. -/
theorem keep_linkJoins_of_keep_joins (hleads : link.leads db row other = true)
    (hholds : c.holds db other = true)
    (hkeep : ((Query.all link.related).narrow c).joins.keep db other = true)
    (h : c.IsOwn ∨ c.IsJoined db link.join other) :
    (linkJoins link [c]).keep db other = true := by
  rcases h with hown | ⟨hintact, hjoin, hgrounded⟩
  · exact keep_linkJoins (List.forall_mem_singleton.2 hown) hleads
  · rw [linkJoins_singleton]
    show ((Joins.ofTouches []).addAll _).keep db other = true
    refine Joins.keep_addAll ?_ ?_ rfl ?_
    · refine List.forall_mem_cons.2 ⟨fun _ => hjoin, fun t ht hneeds => ?_⟩
      exact (hgrounded t (Option.mem_toList.1 ht)).2 hneeds hholds
    · refine List.forall_mem_cons.2 ⟨hintact, fun t ht => ?_⟩
      exact (hgrounded t (Option.mem_toList.1 ht)).1
    · refine List.forall_mem_cons.2 ⟨?_, fun t ht => ?_⟩
      · -- the join alone leaves out no row that it leads to
        have halone : (linkJoins link []).keep db other = true := keep_linkJoins (by simp) hleads
        exact halone
      · rw [joins_all_narrow, Option.mem_toList.1 ht] at hkeep
        exact hkeep

end Condition

namespace Query

variable {db : Database} {row other : Row} {q : Query} {m : Model} {c : Condition} {link : Link}

theorem selects_all_narrow_iff : ((Query.all m).narrow c).Selects db other ↔
    other ∈ db.visible m ∧ (c.verdict = .ok (.asked false) ∧ c.holds db other = true) ∧
      ((Query.all m).narrow c).joins.keep db other = true := by
  rw [selects_iff]
  simp [Query.all, narrow]

/-- Narrowed to linked rows by a column of its own rows, a query selects the rows that it selected
before and from which the link leads to a row that meets the inner condition. -/
theorem selects_narrow_linked_iff (houter : link.outer.hops = []) :
    (q.narrow (.linked link [c])).Selects db row ↔ q.Selects db row ∧
      c.verdict = .ok (.asked false) ∧ ∃ other ∈ db.visible link.related,
        link.leads db row other = true ∧ (Condition.linkJoins link [c]).keep db other = true ∧
          c.holds db other = true := by
  -- a column of the row itself asks for no join
  have hjoins : (q.narrow (.linked link [c])).joins.keep db row = q.joins.keep db row := by
    rw [joins_narrow (t := link.outer.touch false) rfl]
    exact Joins.keep_add_of_used_eq_zero (Joins.distinct_ofTouches _)
      (List.length_eq_zero_iff.2 houter) rfl
  have hconditions : (q.narrow (.linked link [c])).conditions =
      q.conditions ++ [.linked link [c]] := rfl
  have hmodel : (q.narrow (.linked link [c])).model = q.model := rfl
  rw [selects_iff, selects_iff, hjoins, hconditions, hmodel, List.forall_mem_append,
    List.forall_mem_singleton, Condition.verdict_linked_singleton_iff, Condition.holds_linked_iff]
  simp only [List.forall_mem_singleton]
  constructor
  · rintro ⟨hvisible, ⟨hold, hverdict, other, hother, hleads, hkept, hholds⟩, hkeep⟩
    refine ⟨⟨hvisible, hold, hkeep⟩, hverdict.resolve_left fun hnever => ?_, other, hother, hleads,
      hkept, hholds⟩
    rw [Condition.holds_eq_false_of_verdict hnever] at hholds
    cases hholds
  · rintro ⟨⟨hvisible, hold, hkeep⟩, hverdict, hother⟩
    exact ⟨hvisible, ⟨hold, .inr hverdict, hother⟩, hkeep⟩

theorem selects_narrow_linked_iff_of_isOwn (houter : link.outer.hops = []) (hc : c.IsOwn) :
    (q.narrow (.linked link [c])).Selects db row ↔ q.Selects db row ∧
      c.verdict = .ok (.asked false) ∧ ∃ other ∈ db.visible link.related,
        link.leads db row other = true ∧ c.holds db other = true := by
  rw [selects_narrow_linked_iff houter]
  refine and_congr_right fun _ => and_congr_right fun _ => exists_congr fun other =>
    and_congr_right fun _ => and_congr_right fun hleads => and_iff_right ?_
  exact Condition.keep_linkJoins (List.forall_mem_singleton.2 hc) hleads

/-- What the link leads to is then among the rows that a query for the condition selects, and any
of those will do where the joins make no difference. -/
theorem selects_narrow_linked (houter : link.outer.hops = []) :
    ((q.narrow (.linked link [c])).Selects db row → q.Selects db row ∧
        ∃ other, ((Query.all link.related).narrow c).Selects db other ∧
          link.leads db row other = true) ∧
      ∀ other, q.Selects db row → ((Query.all link.related).narrow c).Selects db other →
        link.leads db row other = true → c.IsOwn ∨ c.IsJoined db link.join other →
          (q.narrow (.linked link [c])).Selects db row := by
  rw [selects_narrow_linked_iff houter]
  constructor
  · rintro ⟨hrow, hverdict, other, hother, hleads, hkept, hholds⟩
    refine ⟨hrow, other, selects_all_narrow_iff.2 ⟨hother, ⟨hverdict, hholds⟩, ?_⟩, hleads⟩
    exact Condition.keep_joins_of_keep_linkJoins hkept
  · intro other hrow hfound hleads h
    obtain ⟨hother, ⟨hverdict, hholds⟩, hkeep⟩ := selects_all_narrow_iff.1 hfound
    exact ⟨hrow, hverdict, other, hother, hleads,
      Condition.keep_linkJoins_of_keep_joins hleads hholds hkeep h, hholds⟩

end Query

theorem Request.column_clause (r : Request) (column : String) :
    (r.clause column).column = column := by
  unfold Request.clause
  dsimp only
  split <;> rfl

namespace Filter

variable {schema : Schema} {settings : Settings} {q : Query} {m target : Model} {r : Relation}
  {name rel column : String} {v : Value} {asked : Request} {found : Condition}

theorem holds_iff_ne_of_notEqual (hcolumn : '.' ∉ column.toList)
    (hown : schema.IsOwnColumn target column) (hoperator : asked.operator = .notEqual)
    (h : schema.clauseCondition target (asked.clause column) = .ok found) :
    ∃ c x, schema.resolve target column "exact" = .ok c ∧
      c.readOperand false asked.operand = .ok x ∧ found.verdict ≠ .ok .never ∧
        ∀ db row, found.holds db row = true ↔ row.cell c.column ≠ x := by
  have hclause : asked.clause column = .compare column (.text "<>") asked.operand := by
    rw [Request.clause, hoperator]
    rfl
  rw [hclause, Schema.clauseCondition, fieldPath_of_not_mem _ hcolumn] at h
  change schema.comparison target column (.text "<>") asked.operand = .ok found at h
  rw [Schema.comparison] at h
  obtain ⟨c, hresolve, h⟩ := Except.bind_eq_ok_iff.1 h
  obtain ⟨x, hread, h⟩ := Except.bind_eq_ok_iff.1 h
  have hc := Schema.isOwn_of_resolve hown (by decide) hresolve
  have hfound : found = .test c (if x = .null then .notNull else .differs x) := by
    rw [← Except.ok.inj h, ColumnRef.denial, hc.hops]
    rfl
  refine ⟨c, x, hresolve, hread, ?_, fun db row => ?_⟩
  · have hkept : c.excludes (if x = .null then .notNull else .differs x) = false := by
      split <;> rfl
    rw [hfound, Condition.verdict]
    exact ColumnRef.verdict_ne_never hkept
  · rw [hfound, Condition.holds, ColumnRef.meets, hc.cells, List.any_cons, List.any_nil,
      Bool.or_false]
    by_cases hnull : x = .null
    · rw [if_pos hnull, hnull]
      cases row.cell c.column <;> simp [ColumnRef.accepts, ColumnRef.excludes, ColumnRef.includes,
        Test.holds, Cell.isPresent]
    · rw [if_neg hnull]
      simp [ColumnRef.accepts, ColumnRef.excludes, ColumnRef.includes, Test.holds]

theorem exists_make_related {entities : EntityRegistry} {table : RelationTable}
    (name rel column : String) (hm : schema.find? m.key = some m)
    (hentities : entities.Faithful schema) (htable : (schema.relationTable m).result = .ok table) :
    ∃ e : Entity, e.relations = table ∧
      (make schema name (some (rel ++ "." ++ column)) (some (.model m)) entities).1.result =
        .ok { name, column := rel ++ "." ++ column, owner := some e } := by
  have hne : rel ++ "." ++ column ≠ "" := by
    intro h
    have hchars := congrArg String.toList h
    simp [String.toList_append] at hchars
  obtain ⟨_, hrelations, _⟩ := hentities.register hm
  rw [(make_model hne schema name m entities).1]
  rw [htable] at hrelations
  cases hregistered : (EntityRegistry.register schema m entities).1.result with
  | error fault => rw [hregistered] at hrelations; cases hrelations
  | ok e =>
      rw [hregistered] at hrelations
      exact ⟨e, Except.ok.inj hrelations, rfl⟩

/-- If one filter makes the condition on linked rows of what another makes for a column, the two
narrow queries by one and the same request. -/
theorem exists_narrow_of_apply {through : Filter} {link : Link} {selected narrowed : Query}
    (hcolumn : '.' ∉ column.toList)
    (hcondition : (through.condition schema settings q.model v).result =
      (fun made => (made.1, Condition.linked link [made.2])) <$>
        (Filter.condition schema settings { name, column, owner := none } target v).result)
    (hselected : (through.apply schema settings q v).result = .ok selected)
    (hnarrowed : (Filter.apply schema settings { name, column, owner := none } (.all target)
      v).result = .ok narrowed) :
    ∃ asked made, Request.read settings name v = .ok asked ∧
      schema.clauseCondition target (asked.clause column) = .ok made ∧
        narrowed = (Query.all target).narrow made ∧ selected = q.narrow (.linked link [made]) := by
  obtain ⟨_, _, hthrough, rfl⟩ := result_apply_eq_ok_iff.1 hselected
  obtain ⟨_, _, hdirect, rfl⟩ := result_apply_eq_ok_iff.1 hnarrowed
  change (Filter.condition schema settings _ target v).result = _ at hdirect
  rw [hcondition, hdirect] at hthrough
  obtain ⟨_, rfl⟩ := Prod.mk.inj (Except.ok.inj hthrough)
  rw [result_condition_direct schema settings target name hcolumn] at hdirect
  obtain ⟨asked, hread, hdirect⟩ := Except.bind_eq_ok_iff.1 hdirect
  obtain ⟨made, hclause, hdirect⟩ := Except.bind_eq_ok_iff.1 hdirect
  obtain ⟨_, _, hdirect⟩ := Except.bind_eq_ok_iff.1 hdirect
  obtain ⟨_, rfl⟩ := Prod.mk.inj (Except.ok.inj hdirect)
  exact ⟨asked, made, hread, hclause, rfl, rfl⟩

/-- By an entry of the relations of its model and a column of the related model, a filter fails as
the filter of the column alone fails on all rows of the related model. Otherwise a row to which
pairs, if there are any, refer by its key is selected only if it was selected before and is linked,
by whatever member of the model makes the relation, to a row that the other filter selects; and
every such row is selected if the column is one of the related rows themselves, or else if no row is
missing that is looked at on the way. To ask for rows that differ from an operand is to ask for a
linked row that differs from it. -/
theorem selects_apply_related {entities : EntityRegistry} {table : RelationTable} (name : String)
    (hschema : schema.Coherent) (hm : q.model ∈ schema.models)
    (hentities : entities.Reachable schema)
    (htable : (schema.relationTable q.model).result = .ok table)
    (hrelation : Mapping.find? rel table = some r) (hrel : '.' ∉ rel.toList) (hne : column ≠ "")
    (hcolumn : '.' ∉ column.toList) :
    (∃ x, schema.Makes q.model x r) ∧ ∀ x, schema.Makes q.model x r → x.isKeyed = true →
      ∃ target through direct, schema.find? r.related = some target ∧
        (make schema name (some (rel ++ "." ++ column)) (some (.model q.model)) entities).1.result =
          .ok through ∧
        (make schema name (some column) none entities).1.result = .ok direct ∧
        ∀ settings v,
          (∀ fault, (through.apply schema settings q v).result = .error fault ↔
            (direct.apply schema settings (.all target) v).result = .error fault) ∧
          ∀ selected found, (through.apply schema settings q v).result = .ok selected →
            (direct.apply schema settings (.all target) v).result = .ok found →
            (∀ db row, schema.PairsByKey q.model x row → selected.Selects db row →
              q.Selects db row ∧
                ∃ other, found.Selects db other ∧ schema.Linked db x row other) ∧
            (∀ db row, schema.PairsByKey q.model x row → q.Selects db row →
              (∃ other, found.Selects db other ∧ schema.Linked db x row other ∧
                (schema.IsOwnColumn target column ∨
                  ∀ join, schema.openLink r = .ok (target, join) → ∀ c ∈ found.conditions,
                    c.IsJoined db join other)) →
              selected.Selects db row) ∧
            ∀ asked, Request.read settings name v = .ok asked → asked.operator = .notEqual →
              schema.IsOwnColumn target column →
              ∃ c operand, schema.resolve target column "exact" = .ok c ∧
                c.readOperand false asked.operand = .ok operand ∧
                ∀ db fetched, found.fetch db = .ok fetched →
                  ∀ row, schema.PairsByKey q.model x row → (selected.Selects db row ↔
                    q.Selects db row ∧ ∃ other ∈ db.visible target,
                      schema.Linked db x row other ∧ other.cell c.column ≠ operand) := by
  refine ⟨Schema.exists_makes_of_relationTable htable hrelation, fun x hx hkeyed => ?_⟩
  obtain ⟨target, join, outer, hopen, houter⟩ := Schema.exists_openLink hschema hm hx.1 hkeyed hx.2
  obtain ⟨near, _, hnear, hleads⟩ := Schema.leads_iff_linked hschema hm hx.1 hx.2 hopen houter
  have hfind := (Schema.openLink_eq_ok_iff.1 hopen).1
  obtain ⟨e, he, hthrough⟩ := exists_make_related name rel column
    (hschema.find_key _ hm) (hentities.faithful hschema.find_key) htable
  have hentity : e.relation? rel = some r := by
    rw [Entity.relation?, he, hrelation]
  have hcondition (settings : Settings) (v : Value) :=
    result_condition_related settings name v hrel hne hcolumn hentity
      (Schema.storageName_eq_of_makes hschema hm hx hfind) hopen houter
  refine ⟨target, _, _, hfind, hthrough, congrArg (·.1.result) (make_none hne schema name entities),
    fun settings v => ⟨fun fault => ?_, fun selected found hselected hfound => ?_⟩⟩
  · rw [result_apply_eq_error_iff, result_apply_eq_error_iff, hcondition]
    exact Except.map_eq_error_iff
  · obtain ⟨asked, made, hread, hclause, rfl, rfl⟩ :=
      exists_narrow_of_apply hcolumn (hcondition settings v) hselected hfound
    have hown (h : schema.IsOwnColumn target column) : made.IsOwn :=
      Clause.isOwn_of_isOwnColumn (fun path hpath => by
        rw [Request.column_clause, fieldPath_of_not_mem _ hcolumn] at hpath
        exact Except.ok.inj hpath ▸ h) made hclause
    refine ⟨fun db row hkeys hrow => ?_, fun db row hkeys hrow hother => ?_,
      fun given hgiven hdiffers hself => ?_⟩
    · obtain ⟨hold, other, hother, hlead⟩ := (Query.selects_narrow_linked hnear.hops).1 hrow
      exact ⟨hold, other, hother, (hleads db row other hkeys).1 hlead⟩
    · obtain ⟨other, hother, hlinked, hfree⟩ := hother
      have hfree : made.IsOwn ∨ made.IsJoined db join other :=
        hfree.imp hown fun h => h join hopen made List.mem_cons_self
      exact (Query.selects_narrow_linked hnear.hops).2 other hrow hother
        ((hleads db row other hkeys).2 hlinked) hfree
    · obtain rfl := Except.ok.inj (hread.symm.trans hgiven)
      obtain ⟨col, operand, hresolve, hoperand, hnever, hholds⟩ :=
        holds_iff_ne_of_notEqual hcolumn hself hdiffers hclause
      refine ⟨col, operand, hresolve, hoperand, fun db fetched hfetch row hkeys => ?_⟩
      have hasked : made.verdict = .ok (.asked false) := by
        rcases Query.fetch_eq_ok_iff.1 hfetch with ⟨hverdict, _⟩ | ⟨hverdict, _⟩
        · have hbefore : Condition.verdictOfAll [] = .ok .never :=
            Condition.verdictOfAll_eq_never_of_append hnever hverdict
          cases hbefore
        · exact Condition.verdictOfAll_eq_ok_asked_iff.1 hverdict made List.mem_cons_self
      rw [Query.selects_narrow_linked_iff_of_isOwn hnear.hops (hown hself)]
      simp only [hasked, hleads db row _ hkeys, hholds, true_and]

end Filter

namespace Blog

def notBob : Value :=
  .mapping [("operator", .text "<>"), ("value", .text "Bob")]

def byName : Filter :=
  { name := "author", column := "name", owner := none }

end Blog

open Blog in
/-- Posts without an author are not among those whose author is not called Bob. -/
theorem Filter.selects_apply_related_blog :
    (∀ settings v fault, (byAuthor.apply schema settings (.all post) v).result = .error fault ↔
      (byName.apply schema settings (.all author) v).result = .error fault) ∧
    schema.IsOwnColumn author "name" ∧
    ∃ selected found,
      (byAuthor.apply schema (.ofProject .null) (.all post) notBob).result = .ok selected ∧
      (byName.apply schema (.ofProject .null) (.all author) notBob).result = .ok found ∧
      selected.fetch shelf =
        .ok [[("id", .int 1), ("author_id", .int 7)], [("id", .int 3), ("author_id", .int 7)]] ∧
      ∀ db row, selected.Selects db row ↔ (Query.all post).Selects db row ∧
        ∃ other, found.Selects db other ∧
          schema.Linked db (.forward post (post.fields[1])) row other := by
  have hpost : (Query.all post).model ∈ schema.models := by decide +kernel
  have hname : schema.IsOwnColumn author "name" := ⟨by decide, author, _, rfl, by decide, by decide⟩
  have hmakes : schema.Makes post (.forward post (post.fields[1])) toAuthor :=
    ⟨by decide +kernel, eq_ok_of_toOption (by decide +kernel)⟩
  have hrel : '.' ∉ "author".toList := by decide
  have hcolumn : '.' ∉ "name".toList := by decide
  obtain ⟨_, hall⟩ := selects_apply_related "author" coherent hpost (.new 0) relationTable_post rfl
    hrel (by decide) hcolumn
  obtain ⟨target, through, direct, hfind, hthrough, hdirect, happly⟩ := hall _ hmakes (by decide)
  have hauthor : schema.find? toAuthor.related = some author := by decide +kernel
  obtain rfl := Option.some.inj (hauthor.symm.trans hfind)
  obtain rfl : byAuthor = through := Except.ok.inj (.trans (by rfl) hthrough)
  obtain rfl : byName = direct := Except.ok.inj (.trans (by rfl) hdirect)
  have hselected : ((byAuthor.apply schema (.ofProject .null) (.all post)
      notBob).result.toOption.bind fun selected => (selected.fetch shelf).toOption) =
      some [[("id", .int 1), ("author_id", .int 7)], [("id", .int 3), ("author_id", .int 7)]] := by
    decide +kernel
  obtain ⟨selected, hselected, hfetch⟩ := Option.bind_eq_some_iff.1 hselected
  have hfound : (byName.apply schema (.ofProject .null) (.all author)
      notBob).result.toOption.isSome = true := by
    decide +kernel
  obtain ⟨found, hfound⟩ := Option.isSome_iff_exists.1 hfound
  have hselected := eq_ok_of_toOption hselected
  have hfound := eq_ok_of_toOption hfound
  obtain ⟨_, hnarrow⟩ := happly (.ofProject .null) notBob
  obtain ⟨hsound, hfull, _⟩ := hnarrow selected found hselected hfound
  have hkeys (row : Row) : schema.PairsByKey post (.forward post (post.fields[1])) row :=
    Schema.pairsByKey_of_not_isLinks rfl post row
  refine ⟨fun settings v => (happly settings v).1, hname, selected, found, hselected, hfound,
    eq_ok_of_toOption hfetch, fun db row => ⟨hsound db row (hkeys row), ?_⟩⟩
  rintro ⟨hrow, other, hother, hlinked⟩
  exact hfull db row (hkeys row) hrow ⟨other, hother, hlinked, .inl hname⟩

namespace Stock

def byStore : Filter :=
  { name := "store", column := "stores.id"
    owner := some ⟨⟨0, 0⟩, "stock.Item", "stock.item", "items", [("stores", toStores)]⟩ }

def byKey : Filter :=
  { name := "store", column := "id", owner := none }

def isTwo : Value :=
  .mapping [("operator", .text "="), ("value", .int 2)]

end Stock

open Stock in
/-- By pairs that hold the codes of items a filter of items by their stores selects none. -/
theorem Filter.not_selects_apply_stores : ∃ selected found,
    (schema (some "code")).Makes item (.forward item stores) toStores ∧
    (schema (some "code")).IsOwnColumn store "id" ∧
    (byStore.apply (schema (some "code")) (.ofProject .null) (.all item) isTwo).result =
      .ok selected ∧
    (byKey.apply (schema (some "code")) (.ofProject .null) (.all store) isTwo).result =
      .ok found ∧
    (Query.all item).Selects shelf [("id", .int 1), ("code", .text "ax")] ∧
    found.Selects shelf [("id", .int 2)] ∧
    (schema (some "code")).Linked shelf (.forward item stores)
      [("id", .int 1), ("code", .text "ax")] [("id", .int 2)] ∧
    ¬ selected.Selects shelf [("id", .int 1), ("code", .text "ax")] := by
  have hselected : ((byStore.apply (schema (some "code")) (.ofProject .null) (.all item)
      isTwo).result.toOption.bind fun selected => (selected.fetch shelf).toOption) = some [] := by
    decide +kernel
  have hfound : ((byKey.apply (schema (some "code")) (.ofProject .null) (.all store)
      isTwo).result.toOption.bind fun found => (found.fetch shelf).toOption) =
        some [[("id", .int 2)]] := by
    decide +kernel
  obtain ⟨selected, hselected, hnone⟩ := Option.bind_eq_some_iff.1 hselected
  obtain ⟨found, hfound, hone⟩ := Option.bind_eq_some_iff.1 hfound
  have hall : (Query.all item).fetch shelf = .ok [[("id", .int 1), ("code", .text "ax")]] :=
    eq_ok_of_toOption (by decide +kernel)
  refine ⟨selected, found, ⟨by decide +kernel, eq_ok_of_toOption (by decide +kernel)⟩,
    ⟨by decide, store, _, rfl, by decide, by decide⟩, eq_ok_of_toOption hselected,
    eq_ok_of_toOption hfound, ⟨_, hall, by simp⟩, ⟨_, eq_ok_of_toOption hone, by simp⟩,
    linked_stores, ?_⟩
  rintro ⟨fetched, hfetched, hrow⟩
  obtain rfl := Except.ok.inj (hfetched.symm.trans (eq_ok_of_toOption hnone))
  cases hrow

end RowFilter
