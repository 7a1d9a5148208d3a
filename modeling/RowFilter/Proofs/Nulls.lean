import RowFilter.Proofs.Columns
import RowFilter.Proofs.Objections

/-!
Null operands and null cells. A filter looks at a column of the rows themselves or of the rows that
a relation leads to, and what a request with null comes to is the same inside and outside of a
relation: equality asks for null cells and `<>` for others, as the operators without an operand do;
what needs an operand is met by no row, before the column is even looked up; and a list has no
tokens. What is met by no row inside leaves no row outside, and a test of a column inside is met by
the rows that are linked to a row that meets it.
-/

namespace RowFilter

/-- Whether a filter, on rows of a model, looks at a column, and in which rows it looks for a row:
in the row itself or, by a relation of the model, in those that are linked to it. The first property
is that of the rows for which this is so: pairs, if there are any, must refer to them by their
keys. -/
inductive Filter.LooksAt (schema : Schema) (f : Filter) (m : Model) (c : ColumnRef) :
    (Row → Prop) → (Database → Row → Row → Prop) → Prop where
  | direct (hdot : '.' ∉ f.column.toList) (hc : schema.IsColumn m f.column c) :
      LooksAt schema f m c (fun _ => True) fun _ row other => other = row
  | related (rel column : String) (e : Entity) (r : Relation) (x : Member) (target : Model)
      (hcolumn : f.column = rel ++ "." ++ column) (hrel : '.' ∉ rel.toList)
      (hdot : '.' ∉ column.toList) (hne : column ≠ "") (howner : f.owner = some e)
      (hr : e.relation? rel = some r) (hx : schema.Makes m x r)
      (hkeyed : x.isKeyed = true) (hfind : schema.find? r.related = some target)
      (hc : schema.IsColumn target column c) :
      LooksAt schema f m c (schema.PairsByKey m x) fun db row other =>
        other ∈ db.visible target ∧ schema.Linked db x row other

/-! ### Conditions that can be put to a database -/

theorem Condition.verdictOfAll_append (cs : List Condition) (d : Condition) :
    verdictOfAll (cs ++ [d]) = verdictOfAll cs >>= fun found =>
      match found with
      | .never => .ok .never
      | .asked overflows => (Verdict.and (.asked overflows)) <$> d.verdict := by
  induction cs with
  | nil =>
      rw [List.nil_append, verdictOfAll, verdictOfAll]
      cases d.verdict with
      | error fault => rfl
      | ok found => cases found <;> simp [verdictOfAll, bind, Except.bind, pure, Except.pure,
          Functor.map, Except.map, Verdict.and]
  | cons c cs ih =>
      rw [List.cons_append, verdictOfAll, verdictOfAll, ih]
      cases c.verdict with
      | error fault => rfl
      | ok first =>
          cases first with
          | never => rfl
          | asked overflows =>
              cases verdictOfAll cs with
              | error fault => rfl
              | ok rest =>
                  cases rest with
                  | never => rfl
                  | asked others =>
                      cases d.verdict with
                      | error fault => rfl
                      | ok last => cases last <;> simp [bind, Except.bind, pure, Except.pure,
                          Functor.map, Except.map, Verdict.and, Bool.or_assoc]

namespace Query

variable {q : Query} {d : Condition} {db : Database} {fetched : List Row} {row : Row}

theorem keep_joins_of_isOwn (h : ∀ d ∈ q.conditions, d.IsOwn) (db : Database) (row : Row) :
    q.joins.keep db row = true := by
  rw [joins, Joins.keep_iff (Joins.distinct_ofTouches _)]
  intro p hused
  rcases Joins.isUsed_addAll.1 hused with ⟨j, hj, _⟩ | ⟨t, ht, huses⟩
  · cases hj
  · obtain ⟨d, hd, htouch⟩ := List.mem_filterMap.1 ht
    exact absurd huses (Joins.not_uses_of_used_eq_zero (h d hd t htouch))

theorem exists_fetch_narrow (hq : q.fetch db = .ok fetched) (hd : Verdict.CanFetch d.verdict) :
    ∃ found, (q.narrow d).fetch db = .ok found := by
  have hconditions : (q.narrow d).conditions = q.conditions ++ [d] := rfl
  have hverdict : Verdict.CanFetch (Condition.verdictOfAll (q.narrow d).conditions) := by
    rw [Verdict.CanFetch, hconditions, Condition.verdictOfAll_append]
    rcases fetch_eq_ok_iff.1 hq with ⟨hold, _⟩ | ⟨hold, _⟩ <;> rcases hd with hd | hd <;>
      rw [hold, hd] <;> simp [bind, Except.bind, Functor.map, Except.map, Verdict.and]
  rcases hverdict with hverdict | hverdict
  · exact ⟨[], fetch_eq_ok_iff.2 (.inl ⟨hverdict, rfl⟩)⟩
  · exact ⟨_, fetch_eq_ok_iff.2 (.inr ⟨hverdict, rfl⟩)⟩

theorem fetch_narrow_eq_nil (hq : q.fetch db = .ok fetched) (hd : Verdict.CanFetch d.verdict)
    (hnone : ∀ row, d.holds db row = false) : (q.narrow d).fetch db = .ok [] := by
  obtain ⟨found, hfound⟩ := exists_fetch_narrow hq hd
  suffices hnil : found = [] by rw [hfound, hnil]
  refine List.eq_nil_iff_forall_not_mem.2 fun row hrow => ?_
  obtain ⟨_, hall, _⟩ := selects_iff.1 ((mem_fetch_iff hfound).1 hrow)
  have hholds := (hall d (by simp [narrow])).2
  rw [hnone row] at hholds
  cases hholds

end Query

/-! ### What a request with null comes to -/

theorem ColumnRef.verdict_of_operands_eq_nil {t : Test} (h : t.operands = [])
    (hsearch : t ≠ .contains none) (c : ColumnRef) :
    c.verdict t = .ok (if c.excludes t then .never else .asked false) := by
  have hyear : c.missingYear? t = none := by
    unfold missingYear?
    split
    · simp [Test.operands] at h
    · simp [Test.operands] at h
    · rfl
  have hover : c.overflows t = false := by
    unfold overflows
    split
    · simp [Test.operands] at h
    · simp [Test.operands] at h
    · rw [h]
      rfl
  rw [verdict, hyear, h, hover]
  exact if_neg hsearch

theorem ColumnRef.canFetch_of_operands_eq_nil {t : Test} (h : t.operands = [])
    (hsearch : t ≠ .contains none) (c : ColumnRef) : Verdict.CanFetch (c.verdict t) := by
  rw [verdict_of_operands_eq_nil h hsearch]
  split
  · exact .inl rfl
  · exact .inr rfl

namespace Schema.IsColumn

variable {schema : Schema} {m : Model} {path : String} {c : ColumnRef}
  (hc : schema.IsColumn m path c) (hdot : '.' ∉ path.toList)

include hc hdot

theorem clauseCondition_null (v : Value) :
    schema.clauseCondition m (Request.clause path ⟨.null, v⟩) = .ok (.test c .isNull) := by
  have hclause : "isnull" ∈ clauseLookups := by decide
  have hlink : "isnull" ∈ Lookup.ofLinks := by decide
  rw [schema.clauseCondition_null m hdot,
    hc.onColumn_eq hclause (Lookup.mem_known_of_mem_ofLinks hlink c)]
  rfl

theorem clauseCondition_notNull (v : Value) :
    schema.clauseCondition m (Request.clause path ⟨.notNull, v⟩) = .ok (.test c .notNull) := by
  have hclause : "isnull" ∈ clauseLookups := by decide
  have hlink : "isnull" ∈ Lookup.ofLinks := by decide
  rw [schema.clauseCondition_notNull m hdot,
    hc.onColumn_eq hclause (Lookup.mem_known_of_mem_ofLinks hlink c)]
  rfl

theorem clauseCondition_equal_null :
    schema.clauseCondition m (Request.clause path ⟨.equal, .null⟩) = .ok (.test c .isNull) := by
  have hclause : "exact" ∈ clauseLookups := by decide
  have hlink : "exact" ∈ Lookup.ofLinks := by decide
  have hasked := schema.clauseCondition_compare m hdot .equal .null
  have hcolumn := hc.onColumn_eq hclause (Lookup.mem_known_of_mem_ofLinks hlink c)
  exact hasked.trans (hcolumn _)

theorem clauseCondition_notEqual_null :
    schema.clauseCondition m (Request.clause path ⟨.notEqual, .null⟩) =
      .ok (.test c .notNull) :=
  hc.clauseCondition_notEqual hdot .null

/-- Null has no tokens, and what needs an operand asks for nothing. -/
theorem exists_clauseCondition_never {o : Operator}
    (ho : o ∈ [Operator.greater, .less, .greaterOrEqual, .lessOrEqual, .contains, .isIn]) :
    ∃ d, schema.clauseCondition m (Request.clause path ⟨o, .null⟩) = .ok d ∧
      d.verdict = .ok .never := by
  have hcompare (p : Comparator) (hne : p ≠ .equal) :
      schema.clauseCondition m (Request.clause path ⟨p.operator, .null⟩) = .ok .never := by
    rw [schema.clauseCondition_compare m hdot]
    exact if_pos (by simpa [Value.isNull] using hne)
  have hnever : Condition.never.verdict = .ok .never := by rw [Condition.verdict]
  cases o with
  | greater => exact ⟨.never, hcompare .greater nofun, hnever⟩
  | less => exact ⟨.never, hcompare .less nofun, hnever⟩
  | greaterOrEqual => exact ⟨.never, hcompare .greaterOrEqual nofun, hnever⟩
  | lessOrEqual => exact ⟨.never, hcompare .lessOrEqual nofun, hnever⟩
  | contains => exact ⟨.never, schema.clauseCondition_contains m hdot .null, hnever⟩
  | isIn =>
      have hclause : "in" ∈ clauseLookups := by decide
      have hlink : "in" ∈ Lookup.ofLinks := by decide
      refine ⟨.test c (.isIn []), ?_, ?_⟩
      · rw [schema.clauseCondition_isIn m hdot,
          hc.onColumn_eq hclause (Lookup.mem_known_of_mem_ofLinks hlink c)]
        rfl
      · have hverdict := c.verdict_of_operands_eq_nil (t := .isIn []) rfl nofun
        rw [Condition.verdict, hverdict]
        rfl
  | _ => simp at ho

end Schema.IsColumn

/-- Null has no tokens, which no number exceeds but one below zero. -/
theorem Request.checkCount_isIn_null {settings : Settings} (hlimit : settings.HasLimit)
    (hnumber : ¬ settings.Exceeds 0) (name : String) :
    checkCount settings name .isIn .null = .ok () := by
  rcases checkCount_cases hlimit name ⟨.isIn, .null⟩
    ⟨fun _ => rfl, fun _ hexceeds => absurd hexceeds hnumber⟩ with
    ⟨⟨tokens, htokens, ⟨hbetween, _⟩ | ⟨_, hexceeds⟩⟩, _⟩ | ⟨_, hcount⟩
  · cases hbetween
  · obtain rfl : [] = tokens := Except.ok.inj htokens
    exact absurd hexceeds hnumber
  · exact hcount

section Tests

variable {c : ColumnRef} {column : String} (hown : c.IsOwn column) (db : Database) (row : Row)

include hown

theorem Condition.isOwn_test (t : Test) : (test c t).IsOwn := by
  intro touch htouch
  obtain rfl := Option.some.inj htouch
  exact List.length_eq_zero_iff.2 hown.hops

theorem Condition.holds_isNull_iff :
    (test c .isNull).holds db row = true ↔ row.cell column = .null := by
  rw [holds, ColumnRef.meets, hown.cells]
  cases row.cell column <;> simp [ColumnRef.accepts, ColumnRef.excludes, ColumnRef.includes,
    Test.holds, Cell.isPresent]

theorem Condition.holds_notNull_iff :
    (test c .notNull).holds db row = true ↔ row.cell column ≠ .null := by
  rw [holds, ColumnRef.meets, hown.cells]
  cases row.cell column <;> simp [ColumnRef.accepts, ColumnRef.excludes, ColumnRef.includes,
    Test.holds, Cell.isPresent]

end Tests

/-! ### Inside and outside of a relation -/

namespace Filter

/-- Whether a filter that looks at a column does so in a frame that keeps what is met by no row,
and that is met by the rows from which it gets to a row that meets the condition in it. -/
structure Sees (schema : Schema) (f : Filter) (m : Model) (c : ColumnRef)
    (reaches : Database → Row → Row → Prop) (target : Model) (path : String)
    (frame : Condition → Condition) : Prop where
  frames : f.Frames schema m target path frame
  isColumn : schema.IsColumn target path c
  verdict : ∀ d : Condition, Verdict.CanFetch d.verdict → Verdict.CanFetch (frame d).verdict
  holds : ∀ d : Condition, d.IsOwn → ∀ db row,
    (frame d).holds db row = true ↔ ∃ other, reaches db row other ∧ d.holds db other = true
  touch : ∀ d : Condition, frame d = d ∨
    ∃ t, (frame d).touch? = some t ∧ t.used = 0 ∧ t.needsRow = false

variable {schema : Schema} {settings : Settings} {f : Filter} {m target : Model} {q : Query}
  {db : Database} {c : ColumnRef} {clear : Row → Prop}
  {sees reaches : Database → Row → Row → Prop} {path : String} {frame : Condition → Condition}
  {d : Condition} {asked : Request} {fetched found : List Row} {row : Row}

theorem LooksAt.exists_sees (hschema : schema.Coherent) (hm : m ∈ schema.models)
    (h : f.LooksAt schema m c clear sees) :
    ∃ reaches target path frame, f.Sees schema m c reaches target path frame ∧
      ∀ db row other, clear row → (reaches db row other ↔ sees db row other) := by
  cases h with
  | direct hdot hc =>
      refine ⟨fun _ row other => other = row, m, f.column, id,
        ⟨frames_of_not_mem schema m hdot, hc, fun d => id, fun d _ db row => ?_, fun d => .inl rfl⟩,
        fun _ _ _ _ => Iff.rfl⟩
      simp
  | related rel column e r x target hcolumn hrel hdot hne howner hr hx hkeyed hfind hc =>
      obtain ⟨found, join, outer, hopen, houter⟩ :=
        Schema.exists_openLink hschema hm hx.1 hkeyed hx.2
      obtain ⟨near, _, hnear, hleads⟩ :=
        Schema.leads_iff_linked hschema hm hx.1 hx.2 hopen houter
      obtain rfl := Option.some.inj (hfind.symm.trans (Schema.openLink_eq_ok_iff.1 hopen).1)
      have hstorage := Schema.storageName_eq_of_makes hschema hm hx hfind
      refine ⟨fun db row other => other ∈ db.visible target ∧
          Link.leads db ⟨target, join, outer⟩ row other = true, target, column, _,
        ⟨frames_of_related hcolumn howner hrel hne hdot hr hstorage hopen houter, hc,
          fun d hd => .inr (Condition.verdict_linked_singleton_iff.2 hd), fun d hd db row => ?_,
          fun d => .inr ⟨_, rfl, List.length_eq_zero_iff.2 hnear.hops, rfl⟩⟩,
        fun db row other hrow => and_congr_right fun _ => hleads db row other hrow⟩
      rw [Condition.holds_linked_iff_of_isOwn (List.forall_mem_singleton.2 hd)]
      simp only [List.forall_mem_singleton, and_assoc]

namespace Sees

variable (h : f.Sees schema q.model c reaches target path frame)

include h

theorem answer_eq (hcount : Request.checkCount settings f.name asked.operator asked.operand =
      .ok ()) (hd : schema.clauseCondition target (asked.clause path) = .ok d)
    (htext : asked.operand.hasText = true) (db : Database) :
    f.answer schema settings q db asked = (q.narrow (frame d)).fetch db := by
  rw [h.frames.answer_eq, hcount, hd, Value.written_of_hasText htext]
  rfl

/-- What no row meets in the frame leaves no row outside of it. -/
theorem answer_eq_nil (hcount : Request.checkCount settings f.name asked.operator asked.operand =
      .ok ()) (hd : schema.clauseCondition target (asked.clause path) = .ok d)
    (htext : asked.operand.hasText = true) (hnever : d.verdict = .ok .never)
    (hfetch : q.fetch db = .ok fetched) : f.answer schema settings q db asked = .ok [] := by
  have hown : d.IsOwn := by
    refine Clause.isOwn_of_isOwnColumn (fun cut hcut => ?_) d hd
    rw [Request.column_clause, fieldPath_of_not_mem _ h.frames.noDot] at hcut
    exact Except.ok.inj hcut ▸ h.isColumn.1
  rw [h.answer_eq hcount hd htext]
  refine Query.fetch_narrow_eq_nil hfetch (h.verdict d (.inl hnever)) fun row => ?_
  rw [← Bool.not_eq_true, h.holds d hown]
  rintro ⟨other, _, hholds⟩
  rw [Condition.holds_eq_false_of_verdict hnever] at hholds
  cases hholds

theorem keep_joins (hbase : c.isReference = true → ∀ d ∈ q.conditions, d.IsOwn) (t : Test)
    (db : Database) (row : Row) :
    (q.narrow (frame (.test c t))).joins.keep db row = q.joins.keep db row := by
  rcases h.touch (.test c t) with hself | ⟨touch, htouch, hused, hneeds⟩
  · rw [hself]
    cases href : c.isReference with
    | false =>
        rw [Query.joins_narrow rfl,
          Joins.add_of_path_eq_nil (h.isColumn.path_eq_nil href t.needsRow)]
    | true =>
        have hall : ∀ d ∈ (q.narrow (.test c t)).conditions, d.IsOwn :=
          List.forall_mem_append.2 ⟨hbase href,
            List.forall_mem_singleton.2 (Condition.isOwn_test h.isColumn.isOwn t)⟩
        rw [Query.keep_joins_of_isOwn hall, Query.keep_joins_of_isOwn (hbase href)]
  · rw [Query.joins_narrow htouch]
    exact Joins.keep_add_of_used_eq_zero (Joins.distinct_ofTouches _) hused hneeds

/-- A test that can be put to a database finds the rows from which the filter gets to a row that
meets it. -/
theorem exists_answer_test {t : Test} (hbase : c.isReference = true → ∀ d ∈ q.conditions, d.IsOwn)
    (hfetch : q.fetch db = .ok fetched) (ht : Verdict.CanFetch (c.verdict t)) :
    ∃ found, (q.narrow (frame (.test c t))).fetch db = .ok found ∧
      ∀ row, row ∈ found ↔ row ∈ fetched ∧
        ∃ other, reaches db row other ∧ (Condition.test c t).holds db other = true := by
  have hverdict : Verdict.CanFetch (Condition.test c t).verdict := by rwa [Condition.verdict]
  obtain ⟨found, hfound⟩ := Query.exists_fetch_narrow hfetch (h.verdict _ hverdict)
  refine ⟨found, hfound, fun row => ?_⟩
  rw [Query.mem_fetch_narrow_iff (h.keep_joins hbase t db row) hfetch hfound,
    h.holds _ (Condition.isOwn_test h.isColumn.isOwn t)]

end Sees

/-- With null, what needs an operand and a list find no row, and a range is turned down. Equality
finds what the operator for null finds with any operand that can be written: the rows in which there
is a null cell, be it in the row itself or in a linked one; `<>` finds what the operator for other
cells finds: the rows in which there is a cell that is not null. Of a column of the rows themselves
each row is in one of the two. -/
theorem answer_null (hschema : schema.Coherent) (hm : q.model ∈ schema.models)
    (hlooks : f.LooksAt schema q.model c clear sees)
    (hbase : c.isReference = true → ∀ d ∈ q.conditions, d.IsOwn)
    (hfetch : q.fetch db = .ok fetched) :
    (∀ o ∈ [Operator.greater, .less, .greaterOrEqual, .lessOrEqual, .contains, .isIn],
      (o = .isIn → settings.HasLimit ∧ ¬ settings.Exceeds 0) →
        f.answer schema settings q db ⟨o, .null⟩ = .ok []) ∧
    (∃ r, r.detail.errorClass = .malformed ∧ (f.apply schema settings q
      (Request.value ⟨.between, .null⟩)).result = .error (.rejected r)) ∧
    ∃ nulls others,
      (f.answer schema settings q db ⟨.equal, .null⟩ = .ok nulls ∧
        ∀ v, v.hasText = true → f.answer schema settings q db ⟨.null, v⟩ = .ok nulls) ∧
      (f.answer schema settings q db ⟨.notEqual, .null⟩ = .ok others ∧
        ∀ v, v.hasText = true → f.answer schema settings q db ⟨.notNull, v⟩ = .ok others) ∧
      (∀ row, clear row → (row ∈ nulls ↔ row ∈ fetched ∧
        ∃ other, sees db row other ∧ other.cell c.column = .null)) ∧
      (∀ row, clear row → (row ∈ others ↔ row ∈ fetched ∧
        ∃ other, sees db row other ∧ other.cell c.column ≠ .null)) ∧
      ('.' ∉ f.column.toList → ∀ row ∈ fetched, (row ∈ others ↔ row ∉ nulls)) := by
  obtain ⟨reaches, target, path, frame, h, hsees⟩ := hlooks.exists_sees hschema hm
  have hdot := h.frames.noDot
  have hfetchNull := c.canFetch_of_operands_eq_nil (t := .isNull) rfl nofun
  have hfetchNotNull := c.canFetch_of_operands_eq_nil (t := .notNull) rfl nofun
  obtain ⟨nulls, hnulls, hmemNulls⟩ := h.exists_answer_test hbase hfetch hfetchNull
  obtain ⟨others, hothers, hmemOthers⟩ := h.exists_answer_test hbase hfetch hfetchNotNull
  simp only [Condition.holds_isNull_iff h.isColumn.isOwn] at hmemNulls
  simp only [Condition.holds_notNull_iff h.isColumn.isOwn] at hmemOthers
  have hclearNulls (row : Row) (hrow : clear row) : row ∈ nulls ↔ row ∈ fetched ∧
      ∃ other, sees db row other ∧ other.cell c.column = .null := by
    rw [hmemNulls]
    simp only [hsees db row _ hrow]
  have hclearOthers (row : Row) (hrow : clear row) : row ∈ others ↔ row ∈ fetched ∧
      ∃ other, sees db row other ∧ other.cell c.column ≠ .null := by
    rw [hmemOthers]
    simp only [hsees db row _ hrow]
  refine ⟨fun o ho hin => ?_, ⟨.boundCount f.name 0, rfl, ?_⟩, nulls, others, ⟨?_, fun v hv => ?_⟩,
    ⟨?_, fun v hv => ?_⟩, hclearNulls, hclearOthers, fun hdirect row hrow => ?_⟩
  · obtain ⟨d, hd, hnever⟩ := h.isColumn.exists_clauseCondition_never hdot ho
    refine h.answer_eq_nil ?_ hd rfl hnever hfetch
    cases o with
    | isIn =>
        obtain ⟨hlimit, hnumber⟩ := hin rfl
        exact Request.checkCount_isIn_null hlimit hnumber f.name
    | between => simp at ho
    | _ => rfl
  · rw [h.frames.result_apply]
    rfl
  · have hequal := h.isColumn.clauseCondition_equal_null hdot
    exact (h.answer_eq rfl hequal rfl db).trans hnulls
  · exact (h.answer_eq rfl (h.isColumn.clauseCondition_null hdot v) hv db).trans hnulls
  · have hnotEqual := h.isColumn.clauseCondition_notEqual_null hdot
    exact (h.answer_eq rfl hnotEqual rfl db).trans hothers
  · exact (h.answer_eq rfl (h.isColumn.clauseCondition_notNull hdot v) hv db).trans hothers
  · cases hlooks with
    | direct =>
        rw [hclearOthers row trivial, hclearNulls row trivial]
        simp [hrow]
    | related rel column e r x target hcolumn =>
        rw [hcolumn] at hdirect
        simp [String.toList_append] at hdirect

end Filter

open Blog in
/-- Of three posts one is by an author without a name and one by an author with one; the third is by
nobody, and neither null nor not null finds it. -/
theorem Filter.answer_null_blog : ∃ nulls others : List Row,
    byAuthor.answer schema (.ofProject .null) (.all post) signatures ⟨.isIn, .null⟩ = .ok [] ∧
    byAuthor.answer schema (.ofProject .null) (.all post) signatures ⟨.equal, .null⟩ = .ok nulls ∧
    byAuthor.answer schema (.ofProject .null) (.all post) signatures ⟨.notEqual, .null⟩ =
      .ok others ∧
    (∀ v, v.hasText = true →
      byAuthor.answer schema (.ofProject .null) (.all post) signatures ⟨.null, v⟩ = .ok nulls) ∧
    nulls = [[("id", .int 2), ("author_id", .int 8)]] ∧
    others = [[("id", .int 1), ("author_id", .int 7)]] := by
  have hpost : (Query.all post).model ∈ schema.models := by decide +kernel
  have hmakes : schema.Makes post (.forward post (post.fields[1])) toAuthor :=
    ⟨by decide +kernel, eq_ok_of_toOption (by decide +kernel)⟩
  have hlooks : byAuthor.LooksAt schema post names
      (schema.PairsByKey post (.forward post (post.fields[1]))) fun db row other =>
        other ∈ db.visible author ∧
          schema.Linked db (.forward post (post.fields[1])) row other :=
    .related "author" "name" _ toAuthor _ author (by decide) (by decide) (by decide) (by decide)
      rfl rfl hmakes (by decide) (by decide +kernel) isColumn_names
  have hfetch : (Query.all post).fetch signatures = .ok (signatures.rows "blog.Post") :=
    eq_ok_of_toOption (by decide +kernel)
  have hnumber : ¬ (Settings.ofProject .null).Exceeds 0 := by
    rintro ⟨n, hn, _, hless⟩
    have hlimit : (Settings.ofProject .null).maxInValues = .int 500 := by rfl
    obtain rfl := Value.int.inj (hn.symm.trans hlimit)
    omega
  obtain ⟨hnone, _, nulls, others, ⟨hequal, hnull⟩, ⟨hnotEqual, _⟩, _⟩ :=
    answer_null coherent hpost hlooks nofun hfetch
  have hnulls : (byAuthor.answer schema (.ofProject .null) (.all post) signatures
      ⟨.equal, .null⟩).toOption = some [[("id", .int 2), ("author_id", .int 8)]] := by
    decide +kernel
  have hothers : (byAuthor.answer schema (.ofProject .null) (.all post) signatures
      ⟨.notEqual, .null⟩).toOption = some [[("id", .int 1), ("author_id", .int 7)]] := by
    decide +kernel
  rw [hequal] at hnulls
  rw [hnotEqual] at hothers
  exact ⟨nulls, others, hnone .isIn (by decide) fun _ => ⟨hasLimit, hnumber⟩, hequal, hnotEqual,
    hnull, Option.some.inj hnulls, Option.some.inj hothers⟩

namespace Stock

def keys : ColumnRef :=
  { hops := [], column := "id", scalar := .integer, field := "id", isReference := false }

end Stock

open Stock in
/-- By pairs that hold the codes of items none is found to be in a store with a key, though the one
item there is in such a store. -/
theorem Filter.not_answer_stores :
    (byStore.LooksAt (schema (some "code")) item keys
      ((schema (some "code")).PairsByKey item (.forward item stores)) fun db row other =>
        other ∈ db.visible store ∧
          (schema (some "code")).Linked db (.forward item stores) row other) ∧
    byStore.answer (schema (some "code")) (.ofProject .null) (.all item) shelf ⟨.notNull, .null⟩ =
      .ok [] ∧
    (Query.all item).fetch shelf = .ok [[("id", .int 1), ("code", .text "ax")]] ∧
    [("id", .int 2)] ∈ shelf.visible store ∧
    (schema (some "code")).Linked shelf (.forward item stores)
      [("id", .int 1), ("code", .text "ax")] [("id", .int 2)] ∧
    Row.cell [("id", .int 2)] "id" ≠ .null := by
  have hmakes : (schema (some "code")).Makes item (.forward item stores) toStores :=
    ⟨by decide +kernel, eq_ok_of_toOption (by decide +kernel)⟩
  have hkeys : (schema (some "code")).IsColumn store "id" keys :=
    ⟨⟨by decide, store, _, rfl, by decide, by decide⟩, _, rfl, rfl⟩
  refine ⟨.related "stores" "id" _ toStores _ store (by decide) (by decide) (by decide) (by decide)
    rfl rfl hmakes (by decide) (by decide +kernel) hkeys, eq_ok_of_toOption (by decide +kernel),
    eq_ok_of_toOption (by decide +kernel), by decide +kernel, linked_stores, by decide⟩

end RowFilter
