import Mathlib.Data.String.Basic
import RowFilter.Proofs.Columns

/-!
Comparisons of a column. What a column can hold and what operands are read as is of one kind and in
one order, so exactly one of less, equal and greater is true of a cell that is not null, and nothing
is of one that is null. What is known of a comparison without looking is true of every cell that the
column can hold. Operators that take several tokens are made of those that compare with one.
-/

namespace RowFilter

def Scalar.IsKind : Scalar → Cell → Prop
  | .text, x | .date, x | .clock, x => ∃ s, x = .text s
  | .integer, x | .natural, x | .boolean, x => ∃ n, x = .int n
  | .moment, x => ∃ m, x = .moment m

/-- Whether a column that holds a scalar can hold a cell that is not null. -/
structure Scalar.Fits (s : Scalar) (x : Cell) : Prop where
  isKind : s.IsKind x
  inBounds : ∀ n, x = .int n → s.bounds.1 ≤ n ∧ n ≤ s.bounds.2

namespace Scalar

variable {s : Scalar} {x y : Cell}

theorem IsKind.isPresent (h : s.IsKind x) : x.isPresent = true := by
  cases s <;> obtain ⟨_, rfl⟩ := h <;> rfl

theorem IsKind.order (hx : s.IsKind x) (hy : s.IsKind y) :
    x.before y = true ∧ x ≠ y ∧ y.before x = false ∨
      x.before y = false ∧ x = y ∧ y.before x = false ∨
        x.before y = false ∧ x ≠ y ∧ y.before x = true := by
  have htexts (a b : String) : a < b ∧ a ≠ b ∧ ¬ b < a ∨ ¬ a < b ∧ a = b ∧ ¬ b < a ∨
      ¬ a < b ∧ a ≠ b ∧ b < a := by
    rcases lt_trichotomy a b with h | rfl | h
    · exact .inl ⟨h, h.ne, h.asymm⟩
    · exact .inr (.inl ⟨lt_irrefl a, rfl, lt_irrefl a⟩)
    · exact .inr (.inr ⟨h.asymm, h.ne', h⟩)
  cases s <;> obtain ⟨a, rfl⟩ := hx <;> obtain ⟨b, rfl⟩ := hy
  case moment =>
    have hmoments : a = b ↔ a.micros = b.micros := by
      cases a
      cases b
      simp
    simp only [Cell.before, decide_eq_true_eq, decide_eq_false_iff_not, ne_eq, Cell.moment.injEq,
      hmoments]
    omega
  case integer | natural | boolean =>
    simp only [Cell.before, decide_eq_true_eq, decide_eq_false_iff_not, ne_eq, Cell.int.injEq]
    omega
  all_goals
    simp only [Cell.before, decide_eq_true_eq, decide_eq_false_iff_not, ne_eq, Cell.text.injEq]
    exact htexts a b

theorem IsKind.ne_null (h : s.IsKind x) : x ≠ .null := by
  rintro rfl
  cases h.isPresent

theorem IsKind.agrees_iff (h : s.IsKind y) : x.agrees y = true ↔ x = y := by
  rw [Cell.agrees, Bool.and_eq_true, beq_iff_eq]
  exact ⟨And.right, fun heq => ⟨heq ▸ h.isPresent, heq⟩⟩

/-- Of the operators that ask for less, equal and greater exactly one is met by a cell, and the
others are made of these. -/
theorem IsKind.exists_unique_holds {met : Operator → Prop} (hx : s.IsKind x) (hy : s.IsKind y)
    (hmet : ∀ o : Comparator, met o.operator ↔ o.holds x y = true) :
    (∃! o, o ∈ [Operator.less, .equal, .greater] ∧ met o) ∧
      (met .greaterOrEqual ↔ met .greater ∨ met .equal) ∧
      (met .lessOrEqual ↔ met .less ∨ met .equal) := by
  have hless : met .less ↔ x.before y = true := hmet .less
  have hgreater : met .greater ↔ y.before x = true := hmet .greater
  have hagrees : met .equal ↔ x.agrees y = true := hmet .equal
  have hequal : met .equal ↔ x = y := hagrees.trans hy.agrees_iff
  refine ⟨?_, ?_, ?_⟩
  · suffices hone : ∃ o ∈ [Operator.less, .equal, .greater],
        ∀ p ∈ [Operator.less, .equal, .greater], (met p ↔ p = o) by
      obtain ⟨o, ho, hall⟩ := hone
      exact ⟨o, ⟨ho, (hall o ho).2 rfl⟩, fun p ⟨hp, hin⟩ => (hall p hp).1 hin⟩
    rcases hx.order hy with ⟨hbefore, hne, hafter⟩ | ⟨_, rfl, _⟩ | ⟨hbefore, hne, hafter⟩
    · exact ⟨.less, by decide, by simp [hless, hequal, hgreater, hbefore, hne, hafter]⟩
    · exact ⟨.equal, by decide, by simp [hless, hequal, hgreater, Cell.before_irrefl]⟩
    · exact ⟨.greater, by decide, by simp [hless, hequal, hgreater, hbefore, hne, hafter]⟩
  · rw [hgreater, hagrees]
    exact (hmet .greaterOrEqual).trans Bool.or_eq_true_iff
  · rw [hless, hagrees]
    exact (hmet .lessOrEqual).trans Bool.or_eq_true_iff

end Scalar

namespace ColumnRef

variable {c : ColumnRef} {x y : Cell} {v : Value} {up : Bool}

theorem isKind_of_readOperand (hv : v.isNull = false) (h : c.readOperand up v = .ok x) :
    c.scalar.IsKind x := by
  unfold readOperand at h
  rw [hv] at h
  simp only [Bool.false_eq_true, if_false] at h
  split at h
  all_goals
    next hscalar =>
    obtain ⟨a, _, rfl⟩ := Except.map_eq_ok_iff.1 h
    rw [hscalar]
    exact ⟨_, rfl⟩

theorem readOperand_up (hv : ∀ d, v ≠ .float d) (up : Bool) :
    c.readOperand up v = c.readOperand false v := by
  cases v with
  | float d => exact absurd rfl (hv d)
  | _ => rfl

theorem accepts_compare_of_inBounds (hover : c.isOver x = false) (hunder : c.isUnder x = false)
    (o : Comparator) (y : Cell) : c.accepts (.compare o x) y = o.holds y x := by
  cases o <;> simp [accepts, excludes, includes, hover, hunder, Test.holds]

theorem isOver_of_fits (hx : c.scalar.Fits x) : c.isOver x = false ∧ c.isUnder x = false := by
  cases x with
  | int n =>
      obtain ⟨hlow, hhigh⟩ := hx.inBounds n rfl
      simp only [isOver, isUnder, Bool.and_eq_false_iff, decide_eq_false_iff_not]
      omega
  | _ => exact ⟨rfl, rfl⟩

/-- What is known of a comparison without looking is true of what the column can hold. -/
theorem accepts_compare (hc : c.isReference = false) (hx : c.scalar.IsKind x)
    (hy : c.scalar.Fits y) (o : Comparator) : c.accepts (.compare o x) y = o.holds y x := by
  cases x with
  | int n =>
      obtain ⟨m, rfl⟩ : ∃ m, y = .int m := by
        have hkind := hy.isKind
        revert hx hkind
        cases c.scalar <;> simp [Scalar.IsKind]
      obtain ⟨hlow, hhigh⟩ := hy.inBounds m rfl
      rw [Bool.eq_iff_iff]
      cases o <;> simp [accepts, excludes, includes, isOver, isUnder, hc, Test.holds,
        Comparator.holds, Cell.before, Cell.agrees, Cell.isPresent] <;> omega
  | _ => exact accepts_compare_of_inBounds rfl rfl o y

theorem accepts_compare_null (hx : c.scalar.Fits x) (o : Comparator) :
    c.accepts (.compare o x) .null = false := by
  obtain ⟨hover, hunder⟩ := isOver_of_fits hx
  rw [accepts_compare_of_inBounds hover hunder]
  cases o <;> simp [Comparator.holds, Cell.before]

theorem accepts_equal (hc : c.isReference = false) (hx : c.scalar.IsKind x)
    (hy : y = .null ∨ c.scalar.Fits y) : c.accepts (.compare .equal x) y = y.agrees x := by
  rcases hy with rfl | hy
  · simp [accepts, includes, Test.holds, Comparator.holds]
  · exact accepts_compare hc hx hy .equal

theorem accepts_isIn (xs : List Cell) (y : Cell) :
    c.accepts (.isIn xs) y = true ↔ ∃ x ∈ xs, y.agrees x = true := by
  cases xs <;> simp [accepts, excludes, includes, Test.holds]

theorem accepts_between {low high : Cell} (hc : c.isReference = false)
    (hlow : c.scalar.IsKind low) (hhigh : c.scalar.IsKind high) (hput : high.overflows = false)
    (hy : y = .null ∨ c.scalar.Fits y) : c.accepts (.between low high) y = true ↔
      c.accepts (.compare .greaterOrEqual low) y = true ∧
        c.accepts (.compare .lessOrEqual high) y = true := by
  rcases hy with rfl | hy
  · -- of a missing cell only what lies above all bounds could be known to be greater
    have hunder : c.isUnder high = false := by
      have hbound : c.scalar.bounds.2 = 9223372036854775807 := by
        cases c.scalar <;> rfl
      cases high with
      | int n =>
          simp [Cell.overflows] at hput
          simp [isUnder, hbound]
          omega
      | _ => rfl
    simp [accepts, includes, excludes, Test.holds, Comparator.holds, Cell.before, hunder]
  · rw [accepts_compare hc hlow hy, accepts_compare hc hhigh hy]
    simp [accepts, includes, excludes, Test.holds]

theorem overflows_of_verdict_between {low high : Cell}
    (h : Verdict.CanFetch (c.verdict (.between low high))) : high.overflows = false := by
  rw [Verdict.CanFetch, verdict] at h
  split at h
  · simp at h
  · split at h
    · simp at h
    · simp only [excludes, Bool.false_eq_true, if_false, Except.ok.injEq, reduceCtorEq,
        Verdict.asked.injEq, false_or, overflows, Test.operands] at h
      simp_all

theorem mem_of_readOperands {tokens : List String} {xs : List Cell}
    (h : c.readOperands (tokens.map .text) = .ok xs) :
    x ∈ xs ↔ ∃ t ∈ tokens, c.readOperand false (.text t) = .ok x := by
  induction tokens generalizing xs with
  | nil =>
      obtain rfl := Except.ok.inj h
      simp
  | cons t tokens ih =>
      rw [List.map_cons, readOperands] at h
      obtain ⟨first, hfirst, h⟩ := Except.bind_eq_ok_iff.1 h
      obtain ⟨rest, hrest, h⟩ := Except.bind_eq_ok_iff.1 h
      have hpresent := (isKind_of_readOperand (v := .text t) rfl hfirst).isPresent
      rw [hpresent, if_pos rfl] at h
      obtain rfl := Except.ok.inj h
      rw [List.mem_cons, ih hrest, List.exists_mem_cons_iff, hfirst, Except.ok.injEq, eq_comm]

end ColumnRef

namespace Filter

variable {schema : Schema} {settings : Settings} {f : Filter} {q : Query} {db : Database}
  {c : ColumnRef} {asked : Request} {fetched found : List Row} {v : Value}

section Direct

variable (hdot : '.' ∉ f.column.toList) (hc : schema.IsColumn q.model f.column c)
  (href : c.isReference = false) (hfetch : q.fetch db = .ok fetched)

include hdot hc href hfetch

/-- A filter by a column finds the rows whose cells are accepted by the test that it makes. -/
theorem mem_answer_iff {x : Except Fault Test}
    (hclause : schema.clauseCondition q.model (asked.clause f.column) = .test c <$> x)
    (h : f.answer schema settings q db asked = .ok found) :
    ∃ t, x = .ok t ∧
      (∀ row ∈ fetched, Verdict.CanFetch (c.verdict t)) ∧
      ∀ row, row ∈ found ↔ row ∈ fetched ∧ c.accepts t (row.cell c.column) = true := by
  rw [(frames_of_not_mem schema q.model hdot).answer_eq, hclause] at h
  obtain ⟨_, _, h⟩ := Except.bind_eq_ok_iff.1 h
  obtain ⟨d, hd, h⟩ := Except.bind_eq_ok_iff.1 h
  obtain ⟨t, rfl, rfl⟩ := Except.map_eq_ok_iff.1 hd
  obtain ⟨_, _, h⟩ := Except.bind_eq_ok_iff.1 h
  change (q.narrow (.test c t)).fetch db = .ok found at h
  refine ⟨t, rfl, fun row hrow => ?_, fun row => ?_⟩
  · have hverdict := Query.verdict_of_fetch_narrow hfetch hrow h
    rwa [Condition.verdict] at hverdict
  · have hkeep : (q.narrow (.test c t)).joins.keep db row = q.joins.keep db row := by
      rw [Query.joins_narrow rfl, Joins.add_of_path_eq_nil (hc.path_eq_nil href t.needsRow)]
    rw [Query.mem_fetch_narrow_iff hkeep hfetch h, Condition.holds, ColumnRef.meets, hc.isOwn.cells]
    simp

theorem mem_answer_compare (o : Comparator) (hv : v.isNull = false)
    (h : f.answer schema settings q db ⟨o.operator, v⟩ = .ok found) :
    ∃ x, c.readOperand o.roundsUp v = .ok x ∧
      ∀ row, row ∈ found ↔ row ∈ fetched ∧
        c.accepts (.compare o x) (row.cell c.column) = true := by
  have hclause : schema.clauseCondition q.model (Request.clause f.column ⟨o.operator, v⟩) =
      .test c <$> (o.test <$> c.readOperand o.roundsUp v) := by
    rw [schema.clauseCondition_compare q.model hdot, hv, hc.onColumn_eq o.lookup_mem
      (Lookup.mem_known_of_not_isReference o.lookup_mem href)]
    rfl
  obtain ⟨t, ht, _, hfound⟩ := mem_answer_iff hdot hc href hfetch hclause h
  obtain ⟨x, hx, rfl⟩ := Except.map_eq_ok_iff.1 ht
  have hne := (ColumnRef.isKind_of_readOperand hv hx).ne_null
  rw [Comparator.test, if_neg hne] at hfound
  exact ⟨x, hx, hfound⟩

theorem mem_answer_notEqual (hv : v.isNull = false)
    (h : f.answer schema settings q db ⟨.notEqual, v⟩ = .ok found) :
    ∃ x, c.readOperand false v = .ok x ∧
      ∀ row, row ∈ found ↔ row ∈ fetched ∧ row.cell c.column ≠ x := by
  obtain ⟨t, ht, _, hfound⟩ := mem_answer_iff hdot hc href hfetch
    (hc.clauseCondition_notEqual hdot v) h
  obtain ⟨x, hx, rfl⟩ := Except.map_eq_ok_iff.1 ht
  have hne := (ColumnRef.isKind_of_readOperand hv hx).ne_null
  rw [if_neg hne] at hfound
  refine ⟨x, hx, fun row => (hfound row).trans (and_congr_right fun _ => ?_)⟩
  simp [ColumnRef.accepts, ColumnRef.excludes, ColumnRef.includes, Test.holds]

theorem mem_answer_isIn (h : f.answer schema settings q db ⟨.isIn, v⟩ = .ok found) :
    ∃ xs, c.readOperands (v.tokens.map .text) = .ok xs ∧
      ∀ row, row ∈ found ↔ row ∈ fetched ∧ ∃ x ∈ xs, (row.cell c.column).agrees x = true := by
  have hlookup : "in" ∈ clauseLookups := by decide
  have hclause : schema.clauseCondition q.model (Request.clause f.column ⟨.isIn, v⟩) =
      .test c <$> (.isIn <$> c.readOperands (v.tokens.map .text)) := by
    rw [schema.clauseCondition_isIn q.model hdot, hc.onColumn_eq hlookup
      (Lookup.mem_known_of_not_isReference hlookup href)]
  obtain ⟨t, ht, _, hfound⟩ := mem_answer_iff hdot hc href hfetch hclause h
  obtain ⟨xs, hxs, rfl⟩ := Except.map_eq_ok_iff.1 ht
  simp only [ColumnRef.accepts_isIn] at hfound
  exact ⟨xs, hxs, hfound⟩

theorem mem_answer_between {low high : String} (htokens : v.tokens = [low, high])
    (h : f.answer schema settings q db ⟨.between, v⟩ = .ok found) :
    ∃ x y, c.readOperand false (.text low) = .ok x ∧ c.readOperand false (.text high) = .ok y ∧
      (∀ row ∈ fetched, y.overflows = false) ∧
      ∀ row, row ∈ found ↔ row ∈ fetched ∧
        c.accepts (.between x y) (row.cell c.column) = true := by
  have hlookup : "range" ∈ clauseLookups := by decide
  have hclause : schema.clauseCondition q.model (Request.clause f.column ⟨.between, v⟩) =
      .test c <$> (do
        return .between (← c.readOperand false (.text low))
          (← c.readOperand false (.text high))) := by
    rw [schema.clauseCondition_between q.model hdot htokens, hc.onColumn_eq hlookup
      (Lookup.mem_known_of_not_isReference hlookup href)]
  obtain ⟨t, ht, hverdict, hfound⟩ := mem_answer_iff hdot hc href hfetch hclause h
  obtain ⟨x, hx, ht⟩ := Except.bind_eq_ok_iff.1 ht
  obtain ⟨y, hy, ht⟩ := Except.bind_eq_ok_iff.1 ht
  obtain rfl := Except.ok.inj ht
  exact ⟨x, y, hx, hy, fun row hrow => ColumnRef.overflows_of_verdict_between (hverdict row hrow),
    hfound⟩

/-- The six comparisons with one operand test a cell against one value that the column can hold. -/
theorem exists_operand {answers : Operator → List Row}
    (hv : (∃ s, v = .text s) ∨ ∃ n, v = .int n)
    (hbounds : ∀ n, c.readOperand false v = .ok (.int n) →
      c.scalar.bounds.1 ≤ n ∧ n ≤ c.scalar.bounds.2)
    (h : ∀ o ∈ Operator.comparisons, f.answer schema settings q db ⟨o, v⟩ = .ok (answers o)) :
    ∃ x, c.scalar.Fits x ∧
      (∀ row, row ∈ answers .notEqual ↔ row ∈ fetched ∧ row.cell c.column ≠ x) ∧
      ∀ (o : Comparator) row, row ∈ answers o.operator ↔ row ∈ fetched ∧
        c.accepts (.compare o x) (row.cell c.column) = true := by
  have hpresent : v.isNull = false := by
    rcases hv with ⟨_, rfl⟩ | ⟨_, rfl⟩ <;> rfl
  have hexact : ∀ d, v ≠ .float d := by
    rcases hv with ⟨_, rfl⟩ | ⟨_, rfl⟩ <;> exact nofun
  obtain ⟨x, hx, hdiffers⟩ :=
    mem_answer_notEqual hdot hc href hfetch hpresent (h .notEqual (by decide))
  have hfits : c.scalar.Fits x :=
    ⟨ColumnRef.isKind_of_readOperand hpresent hx, fun n hn => hbounds n (hn ▸ hx)⟩
  refine ⟨x, hfits, hdiffers, fun o => ?_⟩
  obtain ⟨y, hy, hrows⟩ := mem_answer_compare hdot hc href hfetch o hpresent
    (h o.operator (by cases o <;> decide))
  rw [ColumnRef.readOperand_up hexact] at hy
  obtain rfl := Except.ok.inj (hx.symm.trans hy)
  exact hrows

variable (hcells : ∀ row ∈ fetched,
  row.cell c.column = .null ∨ c.scalar.Fits (row.cell c.column))

include hcells

/-- The rows in a list are those that are equal to one of its tokens. -/
theorem mem_answer_isIn_iff {each : String → List Row}
    (h : f.answer schema settings q db ⟨.isIn, v⟩ = .ok found)
    (heach : ∀ t ∈ v.tokens,
      f.answer schema settings q db ⟨.equal, .text t⟩ = .ok (each t)) (row : Row) :
    row ∈ found ↔ ∃ t ∈ v.tokens, row ∈ each t := by
  obtain ⟨xs, hxs, hfound⟩ := mem_answer_isIn hdot hc href hfetch h
  have hequal (t : String) (ht : t ∈ v.tokens) : ∃ x, c.readOperand false (.text t) = .ok x ∧
      (row ∈ each t ↔ row ∈ fetched ∧ (row.cell c.column).agrees x = true) := by
    obtain ⟨x, hx, hrows⟩ := mem_answer_compare hdot hc href hfetch .equal rfl (heach t ht)
    refine ⟨x, hx, (hrows row).trans (and_congr_right fun hrow => ?_)⟩
    rw [ColumnRef.accepts_equal href (ColumnRef.isKind_of_readOperand rfl hx) (hcells row hrow)]
  rw [hfound]
  constructor
  · rintro ⟨hrow, x, hx, hagrees⟩
    obtain ⟨t, ht, hread⟩ := (ColumnRef.mem_of_readOperands hxs).1 hx
    obtain ⟨y, hy, hiff⟩ := hequal t ht
    obtain rfl := Except.ok.inj (hread.symm.trans hy)
    exact ⟨t, ht, hiff.2 ⟨hrow, hagrees⟩⟩
  · rintro ⟨t, ht, hrow⟩
    obtain ⟨x, hx, hiff⟩ := hequal t ht
    obtain ⟨hrow, hagrees⟩ := hiff.1 hrow
    exact ⟨hrow, x, (ColumnRef.mem_of_readOperands hxs).2 ⟨t, ht, hx⟩, hagrees⟩

/-- The rows in a range are those that are not below it and not above it. -/
theorem mem_answer_between_iff {low high : String} {above below : List Row}
    (htokens : v.tokens = [low, high])
    (h : f.answer schema settings q db ⟨.between, v⟩ = .ok found)
    (habove : f.answer schema settings q db ⟨.greaterOrEqual, .text low⟩ = .ok above)
    (hbelow : f.answer schema settings q db ⟨.lessOrEqual, .text high⟩ = .ok below) (row : Row) :
    row ∈ found ↔ row ∈ above ∧ row ∈ below := by
  obtain ⟨x, y, hx, hy, hput, hfound⟩ := mem_answer_between hdot hc href hfetch htokens h
  obtain ⟨x', hx', habove⟩ := mem_answer_compare hdot hc href hfetch .greaterOrEqual rfl habove
  obtain ⟨y', hy', hbelow⟩ := mem_answer_compare hdot hc href hfetch .lessOrEqual rfl hbelow
  obtain rfl := Except.ok.inj (hx.symm.trans hx')
  obtain rfl := Except.ok.inj (hy.symm.trans hy')
  have hkinds := And.intro (ColumnRef.isKind_of_readOperand (v := .text low) rfl hx)
    (ColumnRef.isKind_of_readOperand (v := .text high) rfl hy)
  rw [hfound, habove, hbelow]
  constructor
  · rintro ⟨hrow, haccepts⟩
    obtain ⟨hlow, hhigh⟩ := (ColumnRef.accepts_between href hkinds.1 hkinds.2 (hput row hrow)
      (hcells row hrow)).1 haccepts
    exact ⟨⟨hrow, hlow⟩, hrow, hhigh⟩
  · rintro ⟨⟨hrow, hlow⟩, _, hhigh⟩
    exact ⟨hrow, (ColumnRef.accepts_between href hkinds.1 hkinds.2 (hput row hrow)
      (hcells row hrow)).2 ⟨hlow, hhigh⟩⟩

end Direct

/-- Of a column that is no reference the six comparisons with one operand say one thing. A row with
a cell is found by exactly one of less, equal and greater, by the other two as these say, and by
`<>` if not by equal; a row without one is found by `<>` only. Lists are found token by token, and
ranges from both sides. -/
theorem answer_comparisons (hdot : '.' ∉ f.column.toList)
    (hc : schema.IsColumn q.model f.column c) (href : c.isReference = false)
    (hfetch : q.fetch db = .ok fetched)
    (hcells : ∀ row ∈ fetched, row.cell c.column = .null ∨ c.scalar.Fits (row.cell c.column)) :
    (∀ v (answers : Operator → List Row), ((∃ s, v = .text s) ∨ ∃ n, v = .int n) →
      (∀ n, c.readOperand false v = .ok (.int n) →
        c.scalar.bounds.1 ≤ n ∧ n ≤ c.scalar.bounds.2) →
      (∀ o ∈ Operator.comparisons, f.answer schema settings q db ⟨o, v⟩ = .ok (answers o)) →
      (∀ o ∈ Operator.comparisons, ∀ row ∈ answers o, row ∈ fetched) ∧
      ∀ row ∈ fetched,
        (row.cell c.column ≠ .null →
          (∃! o, o ∈ [Operator.less, .equal, .greater] ∧ row ∈ answers o) ∧
          (row ∈ answers .greaterOrEqual ↔ row ∈ answers .greater ∨ row ∈ answers .equal) ∧
          (row ∈ answers .lessOrEqual ↔ row ∈ answers .less ∨ row ∈ answers .equal)) ∧
        (row.cell c.column = .null → ∀ o ∈ Operator.comparisons,
          (row ∈ answers o ↔ o = .notEqual)) ∧
        (row ∈ answers .notEqual ↔ row ∉ answers .equal)) ∧
    (∀ v tokens found (each : String → List Row), splitValues v = .ok tokens →
      f.answer schema settings q db ⟨.isIn, v⟩ = .ok found →
      (∀ t ∈ tokens, f.answer schema settings q db ⟨.equal, .text t⟩ = .ok (each t)) →
      ∀ row, row ∈ found ↔ ∃ t ∈ tokens, row ∈ each t) ∧
    ∀ v low high found above below, splitValues v = .ok [low, high] →
      f.answer schema settings q db ⟨.between, v⟩ = .ok found →
      f.answer schema settings q db ⟨.greaterOrEqual, .text low⟩ = .ok above →
      f.answer schema settings q db ⟨.lessOrEqual, .text high⟩ = .ok below →
      ∀ row, row ∈ found ↔ row ∈ above ∧ row ∈ below := by
  refine ⟨fun v answers hv hbounds h => ?_,
    fun v tokens found each htokens h heach => ?_,
    fun v low high found above below htokens h habove hbelow => ?_⟩
  · obtain ⟨x, hfits, hdiffers, hcompare⟩ := exists_operand hdot hc href hfetch hv hbounds h
    refine ⟨fun o ho row hin => ?_, fun row hrow => ⟨fun hne => ?_, fun hnull o ho => ?_, ?_⟩⟩
    · by_cases hne : o = .notEqual
      · exact ((hdiffers row).1 (hne ▸ hin)).1
      · obtain ⟨p, rfl⟩ := Comparator.exists_operator ho hne
        exact ((hcompare p row).1 hin).1
    · have hcell := (hcells row hrow).resolve_left hne
      refine hcell.isKind.exists_unique_holds hfits.isKind fun o => ?_
      rw [hcompare, and_iff_right hrow, ColumnRef.accepts_compare href hfits.isKind hcell]
    · by_cases hne : o = .notEqual
      · rw [hne, hdiffers, hnull]
        exact iff_of_true ⟨hrow, hfits.isKind.ne_null.symm⟩ rfl
      · obtain ⟨p, rfl⟩ := Comparator.exists_operator ho hne
        rw [hcompare, hnull, ColumnRef.accepts_compare_null hfits]
        simp [hne]
    · have hequal : row ∈ answers .equal ↔ row.cell c.column = x := by
        rw [← hfits.isKind.agrees_iff,
          ← ColumnRef.accepts_equal href hfits.isKind (hcells row hrow)]
        exact (hcompare .equal row).trans (and_iff_right hrow)
      rw [hdiffers, hequal, and_iff_right hrow]
  · obtain rfl := (splitValues_eq_ok_iff.1 htokens).2
    exact mem_answer_isIn_iff hdot hc href hfetch hcells h heach
  · have htokens := (splitValues_eq_ok_iff.1 htokens).2
    exact mem_answer_between_iff hdot hc href hfetch hcells htokens h habove hbelow

end Filter

open Blog in
/-- Of the authors with a name one is called Bob and one comes before, and the one without a name
only differs. -/
theorem Filter.answer_comparisons_blog : ∃ answers : Operator → List Row,
    (∀ o ∈ Operator.comparisons, byName.answer schema (.ofProject .null) (.all author) signatures
      ⟨o, .text "Bob"⟩ = .ok (answers o)) ∧
    (∃! o, o ∈ [Operator.less, .equal, .greater] ∧
      [("id", .int 7), ("name", .text "Ada")] ∈ answers o) ∧
    ∀ o ∈ Operator.comparisons,
      ([("id", .int 8), ("name", .null)] ∈ answers o ↔ o = .notEqual) := by
  have hdot : '.' ∉ byName.column.toList := by decide
  have hfetch : (Query.all author).fetch signatures = .ok (signatures.rows "blog.Author") :=
    eq_ok_of_toOption (by decide +kernel)
  have hcells : ∀ row ∈ signatures.rows "blog.Author",
      row.cell names.column = .null ∨ names.scalar.Fits (row.cell names.column) := by
    have hfits (t : String) : names.scalar.Fits (.text t) := ⟨⟨t, rfl⟩, nofun⟩
    intro row hrow
    simp only [signatures, if_true, List.mem_cons, List.not_mem_nil, or_false] at hrow
    rcases hrow with rfl | rfl | rfl
    · exact .inr (hfits "Ada")
    · exact .inl rfl
    · exact .inr (hfits "Bob")
  have hanswers (o : Operator) (ho : o ∈ Operator.comparisons) : ∃ found,
      byName.answer schema (.ofProject .null) (.all author) signatures ⟨o, .text "Bob"⟩ =
        .ok found := by
    have hall : ∀ o ∈ Operator.comparisons, (byName.answer schema (.ofProject .null)
        (.all author) signatures ⟨o, .text "Bob"⟩).toOption.isSome = true := by
      decide +kernel
    obtain ⟨found, hfound⟩ := Option.isSome_iff_exists.1 (hall o ho)
    exact ⟨found, eq_ok_of_toOption hfound⟩
  choose! answers hanswers using hanswers
  obtain ⟨_, hall⟩ := (answer_comparisons hdot isColumn_names rfl hfetch hcells).1
    (.text "Bob") answers (.inl ⟨_, rfl⟩) nofun hanswers
  refine ⟨answers, hanswers, ?_, ?_⟩
  · obtain ⟨hcell, _⟩ := hall [("id", .int 7), ("name", .text "Ada")] (by decide)
    exact (hcell (by decide)).1
  · obtain ⟨_, hnull, _⟩ := hall [("id", .int 8), ("name", .null)] (by decide)
    exact hnull rfl

end RowFilter
