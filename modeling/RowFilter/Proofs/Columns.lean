import RowFilter.Proofs.PullBack

/-!
Requests and columns. A request asks one thing of a column: the clause that is made of it looks the
column up and tests it, or it is met by no row and looks nothing up. What each operator comes to is
said here once, of any path without a dot; and of the path of a column of the rows themselves, which
every lookup finds, the condition is the test of that column.
-/

namespace RowFilter

theorem Except.map_eq_ok_iff {α β : Type} {f : α → β} {x : Except Fault α} {b : β} :
    f <$> x = .ok b ↔ ∃ a, x = .ok a ∧ f a = b := by
  cases x <;> simp [Functor.map, Except.map]

def Comparator.operator : Comparator → Operator
  | equal => .equal
  | greater => .greater
  | less => .less
  | greaterOrEqual => .greaterOrEqual
  | lessOrEqual => .lessOrEqual

theorem Comparator.exists_operator {o : Operator} (h : o ∈ Operator.comparisons)
    (hne : o ≠ .notEqual) : ∃ p : Comparator, p.operator = o := by
  cases o with
  | equal => exact ⟨.equal, rfl⟩
  | greater => exact ⟨.greater, rfl⟩
  | less => exact ⟨.less, rfl⟩
  | greaterOrEqual => exact ⟨.greaterOrEqual, rfl⟩
  | lessOrEqual => exact ⟨.lessOrEqual, rfl⟩
  | notEqual => exact absurd rfl hne
  | _ => simp [Operator.comparisons] at h

theorem Comparator.lookup_mem (o : Comparator) : o.lookup ∈ clauseLookups := by
  cases o <;> decide

def Request.value (r : Request) : Value :=
  .mapping [("operator", .text r.operator.token), ("value", r.operand)]

/-! ### What an operator comes to -/

namespace Schema

variable {column : String} (schema : Schema) (m : Model)

theorem comparison_token (path : String) (o : Comparator) (v : Value) :
    schema.comparison m path (.text o.operator.token) v =
      if v.isNull && o != .equal then .ok .never
      else schema.onColumn m path o.lookup fun c => do
        return o.test (← c.readOperand o.roundsUp v) := by
  cases o <;> rfl

variable (hcolumn : '.' ∉ column.toList)

include hcolumn

theorem clauseCondition_compare (o : Comparator) (v : Value) :
    schema.clauseCondition m (Request.clause column ⟨o.operator, v⟩) =
      if v.isNull && o != .equal then .ok .never
      else schema.onColumn m column o.lookup fun c => do
        return o.test (← c.readOperand o.roundsUp v) := by
  have hclause : Request.clause column ⟨o.operator, v⟩ =
      .compare column (.text o.operator.token) v := by
    cases o <;> rfl
  rw [hclause, clauseCondition, fieldPath_of_not_mem _ hcolumn]
  exact schema.comparison_token m column o v

theorem clauseCondition_notEqual (v : Value) :
    schema.clauseCondition m (Request.clause column ⟨.notEqual, v⟩) = do
      let c ← schema.resolve m column "exact"
      return c.denial m (← c.readOperand false v) := by
  show schema.clauseCondition m (.compare column (.text "<>") v) = _
  rw [clauseCondition, fieldPath_of_not_mem _ hcolumn]
  rfl

theorem clauseCondition_contains (v : Value) :
    schema.clauseCondition m (Request.clause column ⟨.contains, v⟩) =
      if v.isNull then .ok .never
      else schema.onColumn m column "contains" fun _ => .ok (.contains v.written.toOption) := by
  show schema.clauseCondition m (.compare column (.text searchToken) v) = _
  rw [clauseCondition, fieldPath_of_not_mem _ hcolumn]
  rfl

theorem clauseCondition_isIn (v : Value) :
    schema.clauseCondition m (Request.clause column ⟨.isIn, v⟩) =
      schema.onColumn m column "in" fun c =>
        .isIn <$> c.readOperands (v.tokens.map .text) := by
  show schema.clauseCondition m (.isIn column _) = _
  rw [clauseCondition, fieldPath_of_not_mem _ hcolumn]
  rfl

theorem clauseCondition_between {v : Value} {low high : String} (h : v.tokens = [low, high]) :
    schema.clauseCondition m (Request.clause column ⟨.between, v⟩) =
      schema.onColumn m column "range" fun c => do
        return .between (← c.readOperand false (.text low))
          (← c.readOperand false (.text high)) := by
  show schema.clauseCondition m (.between column (.list (v.tokens.map .text))) = _
  rw [h, clauseCondition, fieldPath_of_not_mem _ hcolumn]
  rfl

theorem clauseCondition_null (v : Value) :
    schema.clauseCondition m (Request.clause column ⟨.null, v⟩) =
      schema.onColumn m column "isnull" fun _ => .ok .isNull := by
  show schema.clauseCondition m (.null column) = _
  rw [clauseCondition, fieldPath_of_not_mem _ hcolumn]
  rfl

theorem clauseCondition_notNull (v : Value) :
    schema.clauseCondition m (Request.clause column ⟨.notNull, v⟩) =
      schema.onColumn m column "isnull" fun _ => .ok .notNull := by
  show schema.clauseCondition m (.notNull column) = _
  rw [clauseCondition, fieldPath_of_not_mem _ hcolumn]
  rfl

end Schema

/-! ### Columns of the rows themselves -/

theorem ColumnRef.isReference_shorten (c : ColumnRef) (reversed : List Hop) :
    (c.shorten reversed).isReference = c.isReference := by
  induction reversed generalizing c with
  | nil => rfl
  | cons hop hops ih =>
      rw [shorten]
      split
      · exact ih _
      · rfl

@[simp] theorem ColumnRef.isReference_trimmed (c : ColumnRef) :
    c.trimmed.isReference = c.isReference :=
  c.isReference_shorten c.hops.reverse

theorem Lookup.mem_known_of_mem_ofLinks {lookup : String} (h : lookup ∈ ofLinks) (c : ColumnRef) :
    lookup ∈ known c := by
  have hall : ∀ lookup ∈ ofLinks, lookup ∈ ofColumns := by decide
  unfold known
  split
  · exact h
  · exact List.mem_append_left _ (hall lookup h)

theorem Lookup.mem_known_of_not_isReference {lookup : String} (h : lookup ∈ clauseLookups)
    {c : ColumnRef} (hc : c.isReference = false) : lookup ∈ known c := by
  have hall : ∀ lookup ∈ clauseLookups, lookup ∈ ofColumns := by decide
  rw [known, hc]
  exact List.mem_append_left _ (hall lookup h)

def Schema.IsColumn (schema : Schema) (m : Model) (path : String) (c : ColumnRef) : Prop :=
  schema.IsOwnColumn m path ∧
    ∃ lead, (schema.member? m path).bind schema.lead? = some lead ∧ c = lead.column.trimmed

namespace Schema.IsColumn

variable {schema : Schema} {m : Model} {path lookup : String} {c : ColumnRef}

theorem resolve_eq (h : schema.IsColumn m path c) (hlookup : lookup ∈ clauseLookups)
    (hknown : lookup ∈ Lookup.known c) : schema.resolve m path lookup = .ok c := by
  obtain ⟨hown, lead, hlead, rfl⟩ := h
  obtain ⟨x, hmember, hlead⟩ := Option.bind_eq_some_iff.1 hlead
  rw [resolve_eq_follow hown hlookup hmember hlead, Lookup.follow,
    if_pos (List.contains_iff_mem.2 hknown)]

theorem isOwn (h : schema.IsColumn m path c) : c.IsOwn c.column := by
  have hclause : "exact" ∈ clauseLookups := by decide
  have hlink : "exact" ∈ Lookup.ofLinks := by decide
  exact isOwn_of_resolve h.1 hclause
    (h.resolve_eq hclause (Lookup.mem_known_of_mem_ofLinks hlink c))

theorem onColumn_eq (h : schema.IsColumn m path c) (hlookup : lookup ∈ clauseLookups)
    (hknown : lookup ∈ Lookup.known c) (build : ColumnRef → Except Fault Test) :
    schema.onColumn m path lookup build = .test c <$> build c := by
  rw [onColumn, h.resolve_eq hlookup hknown]
  rfl

/-- Of a column of the rows themselves `<>` makes a test, for null that for cells that are not. -/
theorem clauseCondition_notEqual (h : schema.IsColumn m path c) (hdot : '.' ∉ path.toList)
    (v : Value) : schema.clauseCondition m (Request.clause path ⟨.notEqual, v⟩) =
      .test c <$> ((fun x => if x = .null then .notNull else .differs x) <$>
        c.readOperand false v) := by
  have hclause : "exact" ∈ clauseLookups := by decide
  have hlink : "exact" ∈ Lookup.ofLinks := by decide
  have hdenial (x : Cell) :
      c.denial m x = .test c (if x = .null then .notNull else .differs x) := by
    rw [ColumnRef.denial, h.isOwn.hops]
    rfl
  rw [schema.clauseCondition_notEqual m hdot,
    h.resolve_eq hclause (Lookup.mem_known_of_mem_ofLinks hlink c)]
  show (c.readOperand false v >>= fun x => .ok (c.denial m x)) = _
  cases c.readOperand false v with
  | error fault => rfl
  | ok x => exact congrArg Except.ok (hdenial x)

theorem path_eq_nil (h : schema.IsColumn m path c) (hc : c.isReference = false)
    (needsRow : Bool) : (c.touch needsRow).path = [] := by
  obtain ⟨⟨_, owner, f, hmember, hf, _⟩, lead, hlead, rfl⟩ := h
  rw [hmember, Option.bind_some, lead?] at hlead
  split at hlead
  · obtain rfl := Option.some.inj hlead
    rw [ColumnRef.trimmed_of_hops_eq_nil rfl]
    exact touch_of_hops_eq_nil rfl rfl needsRow
  · obtain ⟨⟨hop, target⟩, _, hlead⟩ := Option.bind_eq_some_iff.1 hlead
    obtain rfl := Option.some.inj hlead
    rw [ColumnRef.isReference_trimmed] at hc
    cases hc
  · next hkind =>
    rw [Field.hasColumn, hkind] at hf
    cases hf
  · cases hlead

end Schema.IsColumn

/-! ### What a filter finds -/

/-- Whether a verdict lets rows be fetched: there is nothing to ask a database, or nothing in what
it is asked is too large for it. -/
def Verdict.CanFetch (verdict : Except Fault Verdict) : Prop :=
  verdict = .ok .never ∨ verdict = .ok (.asked false)

namespace Query

variable {q : Query} {d : Condition} {db : Database} {fetched found : List Row} {row : Row}

theorem mem_fetch_iff (h : q.fetch db = .ok fetched) : row ∈ fetched ↔ q.Selects db row :=
  ⟨fun hrow => ⟨fetched, h, hrow⟩, fun ⟨_, hother, hrow⟩ =>
    Except.ok.inj (hother.symm.trans h) ▸ hrow⟩

/-- If there are rows to narrow, only the new condition can have left nothing to look at. -/
theorem verdict_of_fetch_narrow (hq : q.fetch db = .ok fetched) (hrow : row ∈ fetched)
    (h : (q.narrow d).fetch db = .ok found) : Verdict.CanFetch d.verdict := by
  have hasked : Condition.verdictOfAll q.conditions = .ok (.asked false) :=
    Condition.verdictOfAll_eq_ok_asked_iff.2 fun c hc =>
      ((selects_iff.1 ((mem_fetch_iff hq).1 hrow)).2.1 c hc).1
  have hconditions : (q.narrow d).conditions = q.conditions ++ [d] := rfl
  rcases fetch_eq_ok_iff.1 h with ⟨hverdict, _⟩ | ⟨hverdict, _⟩
  · refine .inl ?_
    by_contra hnever
    rw [hconditions] at hverdict
    rw [Condition.verdictOfAll_eq_never_of_append hnever hverdict] at hasked
    cases hasked
  · exact .inr (Condition.verdictOfAll_eq_ok_asked_iff.1 hverdict d (by simp [hconditions]))

/-- What is fetched after narrowing a query is what was fetched before and meets the condition, if
the condition asks for no join that leaves out more rows. -/
theorem mem_fetch_narrow_iff (hkeep : (q.narrow d).joins.keep db row = q.joins.keep db row)
    (hq : q.fetch db = .ok fetched) (h : (q.narrow d).fetch db = .ok found) :
    row ∈ found ↔ row ∈ fetched ∧ d.holds db row = true := by
  have hconditions : (q.narrow d).conditions = q.conditions ++ [d] := rfl
  have hmodel : (q.narrow d).model = q.model := rfl
  rw [mem_fetch_iff h, mem_fetch_iff hq, selects_iff, selects_iff, hkeep, hconditions, hmodel,
    List.forall_mem_append, List.forall_mem_singleton]
  constructor
  · rintro ⟨hvisible, ⟨hold, _, hholds⟩, hkept⟩
    exact ⟨⟨hvisible, hold, hkept⟩, hholds⟩
  · rintro ⟨⟨hvisible, hold, hkept⟩, hholds⟩
    refine ⟨hvisible, ⟨hold, ?_, hholds⟩, hkept⟩
    have hrow : row ∈ fetched := (mem_fetch_iff hq).2 (selects_iff.2 ⟨hvisible, hold, hkept⟩)
    rcases verdict_of_fetch_narrow hq hrow h with hnever | hasked
    · rw [Condition.holds_eq_false_of_verdict hnever] at hholds
      cases hholds
    · exact hasked

end Query

def Value.Asks (v token operand : Value) : Prop :=
  ∃ entries, v = .mapping entries ∧ Mapping.find? "operator" entries = some token ∧
    Mapping.find? "value" entries = some operand

theorem Request.read_of_asks {v operand : Value} {operator : Operator}
    (h : v.Asks (.text operator.token) operand) (settings : Settings) (name : String) :
    Request.read settings name v =
      (do checkCount settings name operator operand; return ⟨operator, operand⟩) := by
  obtain ⟨entries, rfl, htoken, hoperand⟩ := h
  have hoperator : (Value.text operator.token).asOperator? = some operator :=
    Operator.ofToken?_token operator
  rw [read, htoken, hoperand]
  simp only [hoperator]

theorem Request.asks_value (r : Request) : r.value.Asks (.text r.operator.token) r.operand :=
  ⟨_, rfl, rfl, rfl⟩

theorem Request.read_value (settings : Settings) (name : String) (r : Request) :
    Request.read settings name r.value =
      (do checkCount settings name r.operator r.operand; return r) :=
  read_of_asks r.asks_value settings name

namespace Filter

variable {schema : Schema} {settings : Settings} {f : Filter} {q : Query} {db : Database}
  {asked : Request}

def answer (schema : Schema) (settings : Settings) (f : Filter) (q : Query) (db : Database)
    (asked : Request) : Except Fault (List Row) := do
  let narrowed ← (f.apply schema settings q asked.value).result
  narrowed.fetch db

/-- Whether the condition that a filter makes of a request, on rows of a model, is what the request
asks of a path, possibly one of another model, in a frame. -/
structure Frames (schema : Schema) (f : Filter) (m target : Model) (path : String)
    (frame : Condition → Condition) : Prop where
  noDot : '.' ∉ path.toList
  result_condition : ∀ settings v, (f.condition schema settings m v).result = (do
    let asked ← Request.read settings f.name v
    let d ← schema.clauseCondition target (asked.clause path)
    let _ ← asked.operand.written
    return (asked, frame d))

theorem frames_of_not_mem (schema : Schema) (m : Model) (hdot : '.' ∉ f.column.toList) :
    f.Frames schema m m f.column id :=
  ⟨hdot, fun settings v => result_condition_of_not_mem schema settings m hdot v⟩

theorem frames_of_related {m target : Model} {rel column : String} {e : Entity} {r : Relation}
    {join outer : ColumnRef} (hcolumn : f.column = rel ++ "." ++ column)
    (howner : f.owner = some e) (hrel : '.' ∉ rel.toList) (hne : column ≠ "")
    (hdot : '.' ∉ column.toList) (hr : e.relation? rel = some r)
    (hstorage : r.storageName = target.table) (hopen : schema.openLink r = .ok (target, join))
    (houter : schema.outerColumn m r.outerKey = .ok outer) :
    f.Frames schema m target column fun d => .linked ⟨target, join, outer⟩ [d] := by
  refine ⟨hdot, fun settings v => ?_⟩
  obtain ⟨name, _, _, isSingular⟩ := f
  obtain rfl : _ = rel ++ "." ++ column := hcolumn
  obtain rfl : _ = some e := howner
  refine (result_condition_related settings name v hrel hne hdot hr hstorage hopen
    houter).trans ?_
  rw [result_condition_direct schema settings target name hdot]
  cases Request.read settings name v with
  | error fault => rfl
  | ok asked =>
      dsimp only [bind, Except.bind, pure, Except.pure]
      cases schema.clauseCondition target (asked.clause column) with
      | error fault => rfl
      | ok d => cases asked.operand.written <;> rfl

theorem result_apply (schema : Schema) (settings : Settings) (f : Filter) (q : Query) (v : Value) :
    (f.apply schema settings q v).result =
      (fun made => q.narrow made.2) <$> (f.condition schema settings q.model v).result := by
  unfold apply
  dsimp only
  cases (f.condition schema settings q.model v).result with
  | error fault => rfl
  | ok made => rfl

theorem Frames.result_apply {target : Model} {path : String} {frame : Condition → Condition}
    (h : f.Frames schema q.model target path frame) (settings : Settings) (asked : Request) :
    (f.apply schema settings q asked.value).result = (do
      Request.checkCount settings f.name asked.operator asked.operand
      let d ← schema.clauseCondition target (asked.clause path)
      let _ ← asked.operand.written
      return q.narrow (frame d)) := by
  rw [f.result_apply, h.result_condition, Request.read_value]
  cases Request.checkCount settings f.name asked.operator asked.operand with
  | error fault => rfl
  | ok _ =>
      dsimp only [bind, Except.bind, pure, Except.pure]
      cases schema.clauseCondition target (asked.clause path) with
      | error fault => rfl
      | ok d => cases asked.operand.written <;> rfl

theorem Frames.answer_eq {target : Model} {path : String} {frame : Condition → Condition}
    (h : f.Frames schema q.model target path frame) (settings : Settings) (db : Database)
    (asked : Request) : f.answer schema settings q db asked = (do
      Request.checkCount settings f.name asked.operator asked.operand
      let d ← schema.clauseCondition target (asked.clause path)
      let _ ← asked.operand.written
      (q.narrow (frame d)).fetch db) := by
  rw [answer, h.result_apply]
  cases Request.checkCount settings f.name asked.operator asked.operand with
  | error fault => rfl
  | ok _ =>
      dsimp only [bind, Except.bind, pure, Except.pure]
      cases schema.clauseCondition target (asked.clause path) with
      | error fault => rfl
      | ok d => cases asked.operand.written <;> rfl

end Filter

namespace Blog

def names : ColumnRef :=
  { hops := [], column := "name", scalar := .text, field := "name", isReference := false }

theorem isColumn_names : schema.IsColumn author "name" names :=
  ⟨⟨by decide, author, _, rfl, by decide, by decide⟩, _, rfl, rfl⟩

end Blog

end RowFilter
