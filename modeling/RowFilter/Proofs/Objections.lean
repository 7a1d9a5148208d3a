import RowFilter.Proofs.Columns
import RowFilter.Proofs.ErrorSources
import RowFilter.Proofs.Spellings

/-!
Objections. A filter turns a value down for one of six reasons, and it looks for them in a fixed
order: what it is asked for decides only where its own column does not, and the relation and the
column after it only where the request could be read. `Filter.Objects` says of each reason when it
holds, without the others. A value is turned down exactly if some reason holds, and for the first
that does; whatever else a filter fails with is no error of a filter. The obligation is that nothing
which passed the checks is rejected by the query under the filter.
-/

namespace RowFilter

inductive Objection where
  /-- The column has too many segments. -/
  | depth
  /-- The value is no mapping with an operator and an operand. -/
  | form
  | operator
  /-- The operand has a number of tokens that the operator does not take. -/
  | count
  | relation
  /-- What follows the relation is no column of the table that it leads to. -/
  | column
  deriving DecidableEq

namespace Objection

def all : List Objection :=
  [depth, form, operator, count, relation, column]

def errorClass : Objection → ErrorClass
  | depth => .unsupportedDepth
  | form | count | column => .malformed
  | operator => .unsupportedOperator
  | relation => .unknownRelation

end Objection

def Settings.Exceeds (settings : Settings) (count : Nat) : Prop :=
  ∃ n, settings.maxInValues = .int n ∧ n ≠ 0 ∧ n < count

/-- Whether the limit on values is a number, or there is none. -/
def Settings.HasLimit (settings : Settings) : Prop :=
  settings.maxInValues = .null ∨ ∃ n, settings.maxInValues = .int n

/-- Whether what is written to count the tokens of a request can be written: an operand that is cut
into tokens, and the limit on values where there are more tokens than that. -/
def Request.IsTold (settings : Settings) (asked : Request) : Prop :=
  (asked.operator.takesTokens = true → asked.operand.hasText = true) ∧
    (asked.operator = .isIn → settings.Exceeds asked.operand.tokens.length →
      settings.maxInValues.hasText = true)

def Value.IsTold (settings : Settings) (v : Value) : Prop :=
  ∀ asked : Request, v.Asks (.text asked.operator.token) asked.operand → asked.IsTold settings

def Request.Miscounts (settings : Settings) (asked : Request) : Prop :=
  ∃ tokens, splitValues asked.operand = .ok tokens ∧
    (asked.operator = .between ∧ tokens.length ≠ 2 ∨
      asked.operator = .isIn ∧ settings.Exceeds tokens.length)

namespace Filter

/-- Whether a filter asks a query for a column that is not one of its table: behind a relation of
the owner that can be followed nothing stands, or the relation names another table. -/
def HasForeignColumn (schema : Schema) (f : Filter) : Prop :=
  ∃ rel column e r target join, f.column = rel ++ "." ++ column ∧ '.' ∉ rel.toList ∧
    '.' ∉ column.toList ∧ f.owner = some e ∧ e.relation? rel = some r ∧
    schema.openLink r = .ok (target, join) ∧ (column = "" ∨ r.storageName ≠ target.table)

def Objects (schema : Schema) (settings : Settings) (f : Filter) (v : Value) : Objection → Prop
  | .depth => 2 ≤ f.column.toList.count '.'
  | .form => ¬ ∃ token operand, v.Asks token operand
  | .operator => ∃ token operand, v.Asks token operand ∧ ∀ o : Operator, token ≠ .text o.token
  | .count => ∃ asked : Request, v.Asks (.text asked.operator.token) asked.operand ∧
      asked.Miscounts settings
  | .relation => ∃ rel column, f.column = rel ++ "." ++ column ∧ '.' ∉ rel.toList ∧
      '.' ∉ column.toList ∧ ∀ e ∈ f.owner, e.relation? rel = none
  | .column => f.HasForeignColumn schema

/-- Whether a filter has a reason to turn a value down, and none that it looks for before. -/
def ObjectsFirst (schema : Schema) (settings : Settings) (f : Filter) (v : Value)
    (o : Objection) : Prop :=
  f.Objects schema settings v o ∧
    ∀ p ∈ Objection.all.takeWhile (· ≠ o), ¬ f.Objects schema settings v p

end Filter

/-! ### Reading a request -/

theorem Value.Asks.eq {v token operand token' operand' : Value} (h : v.Asks token operand)
    (h' : v.Asks token' operand') : token = token' ∧ operand = operand' := by
  obtain ⟨entries, rfl, htoken, hoperand⟩ := h
  obtain ⟨_, heq, htoken', hoperand'⟩ := h'
  obtain rfl := Value.mapping.inj heq
  exact ⟨Option.some.inj (htoken.symm.trans htoken'),
    Option.some.inj (hoperand.symm.trans hoperand')⟩

theorem Value.asOperator?_eq_some_iff {v : Value} {o : Operator} :
    v.asOperator? = some o ↔ v = .text o.token := by
  cases v with
  | text s => simp [asOperator?, asText?, Operator.ofToken?_eq_some_iff]
  | _ => simp [asOperator?, asText?]

theorem Settings.HasLimit.exceedsLimit {settings : Settings} (h : settings.HasLimit) (count : Nat) :
    ∃ exceeds, settings.exceedsLimit count = .ok exceeds ∧
      (exceeds = true ↔ settings.Exceeds count) := by
  rcases h with h | ⟨n, h⟩
  · refine ⟨false, by simp [Settings.exceedsLimit, h, Value.truthy], ?_⟩
    simp [Settings.Exceeds, h]
  · by_cases hn : n = 0
    · refine ⟨false, by simp [Settings.exceedsLimit, h, Value.truthy, hn], ?_⟩
      simp [Settings.Exceeds, h, hn]
    · refine ⟨decide (n < count), by simp [Settings.exceedsLimit, h, Value.truthy, hn], ?_⟩
      simp [Settings.Exceeds, h, hn]

namespace Request

variable {settings : Settings} {name : String} {v : Value}

theorem checkCount_cases (hlimit : settings.HasLimit) (name : String) (asked : Request)
    (htold : asked.IsTold settings) :
    (asked.Miscounts settings ∧ ∃ r, r.detail.errorClass = .malformed ∧
        checkCount settings name asked.operator asked.operand = .error (.rejected r)) ∨
      ¬ asked.Miscounts settings ∧
        checkCount settings name asked.operator asked.operand = .ok () := by
  obtain ⟨operator, operand⟩ := asked
  obtain ⟨htext, hnumber⟩ := htold
  dsimp only at htext hnumber
  cases operator with
  | between =>
      have htokens := splitValues_eq_ok_iff.2 ⟨htext rfl, rfl⟩
      by_cases hcount : operand.tokens.length = 2
      · refine .inr ⟨?_, ?_⟩
        · rintro ⟨_, heq, ⟨_, hne⟩ | ⟨h, _⟩⟩
          · obtain rfl := Except.ok.inj (htokens.symm.trans heq)
            exact hne hcount
          · cases h
        · simp only [checkCount, htokens]
          exact if_pos hcount
      · refine .inl ⟨⟨_, htokens, .inl ⟨rfl, hcount⟩⟩, .boundCount name operand.tokens.length, rfl,
          ?_⟩
        simp only [checkCount, htokens]
        exact if_neg hcount
  | isIn =>
      have htokens := splitValues_eq_ok_iff.2 ⟨htext rfl, rfl⟩
      obtain ⟨exceeds, hexceeds, hiff⟩ := hlimit.exceedsLimit operand.tokens.length
      cases exceeds with
      | true =>
          refine .inl ⟨⟨_, htokens, .inr ⟨rfl, hiff.1 rfl⟩⟩,
            .tooManyValues name settings.maxInValues operand.tokens.length, rfl, ?_⟩
          simp only [checkCount, htokens, bind, Except.bind, hexceeds,
            Value.told_of_hasText (hnumber rfl (hiff.1 rfl)), if_true]
      | false =>
          refine .inr ⟨?_, ?_⟩
          · rintro ⟨_, heq, ⟨h, _⟩ | ⟨_, h⟩⟩
            · cases h
            · obtain rfl := Except.ok.inj (htokens.symm.trans heq)
              exact Bool.false_ne_true (hiff.2 h)
          · simp only [checkCount, htokens, bind, Except.bind, hexceeds]
            rfl
  | _ => exact .inr ⟨by simp [Miscounts], rfl⟩

/-- What cannot be written fails the count, before it says anything. -/
theorem checkCount_of_not_isTold (hlimit : settings.HasLimit) (name : String) {asked : Request}
    (hsilent : ¬ asked.IsTold settings) :
    checkCount settings name asked.operator asked.operand = .error .longNumber := by
  obtain ⟨operator, operand⟩ := asked
  by_cases htext : operand.hasText = true
  · have htokens := splitValues_eq_ok_iff.2 ⟨htext, rfl⟩
    obtain ⟨hisIn, hexceeds, hnumber⟩ : operator = .isIn ∧
        settings.Exceeds operand.tokens.length ∧ settings.maxInValues.hasText ≠ true := by
      simpa [IsTold, htext] using hsilent
    obtain rfl := hisIn
    obtain ⟨exceeds, hchecked, hiff⟩ := hlimit.exceedsLimit operand.tokens.length
    obtain rfl := hiff.2 hexceeds
    simp only [checkCount, htokens, bind, Except.bind, hchecked, if_true, Value.told,
      if_neg hnumber]
  · have htokens : splitValues operand = .error .longNumber := if_neg htext
    cases operator with
    | between => simp only [checkCount, htokens, bind, Except.bind]
    | isIn => simp only [checkCount, htokens, bind, Except.bind]
    | _ => simp [IsTold, Operator.takesTokens] at hsilent

inductive Reading (settings : Settings) (v : Value) : Except Fault Request → Prop where
  | noForm (r : Rejection) (h : ¬ ∃ token operand, v.Asks token operand)
      (hclass : r.detail.errorClass = .malformed) : Reading settings v (.error (.rejected r))
  | noOperator (r : Rejection) (token operand : Value) (h : v.Asks token operand)
      (hbad : ∀ o : Operator, token ≠ .text o.token)
      (hclass : r.detail.errorClass = .unsupportedOperator) :
      Reading settings v (.error (.rejected r))
  | miscount (r : Rejection) (asked : Request)
      (h : v.Asks (.text asked.operator.token) asked.operand) (hcount : asked.Miscounts settings)
      (hclass : r.detail.errorClass = .malformed) : Reading settings v (.error (.rejected r))
  | asks (asked : Request) (h : v.Asks (.text asked.operator.token) asked.operand)
      (hcount : ¬ asked.Miscounts settings) : Reading settings v (.ok asked)

theorem reading (hlimit : settings.HasLimit) (name : String) (htold : v.IsTold settings) :
    Reading settings v (read settings name v) := by
  cases v with
  | mapping entries =>
      rw [read]
      cases htoken : Mapping.find? "operator" entries with
      | none =>
          refine .noForm _ ?_ rfl
          rintro ⟨token, operand, _, heq, htoken', _⟩
          obtain rfl := Value.mapping.inj heq
          rw [htoken] at htoken'
          cases htoken'
      | some token =>
          cases hoperand : Mapping.find? "value" entries with
          | none =>
              refine .noForm _ ?_ rfl
              rintro ⟨token, operand, _, heq, _, hoperand'⟩
              obtain rfl := Value.mapping.inj heq
              rw [hoperand] at hoperand'
              cases hoperand'
          | some operand =>
              have hasks : (Value.mapping entries).Asks token operand :=
                ⟨entries, rfl, htoken, hoperand⟩
              dsimp only
              cases hoperator : token.asOperator? with
              | none =>
                  refine .noOperator _ token operand hasks (fun o ho => ?_) rfl
                  rw [Value.asOperator?_eq_some_iff.2 ho] at hoperator
                  cases hoperator
              | some operator =>
                  obtain rfl := Value.asOperator?_eq_some_iff.1 hoperator
                  rcases checkCount_cases hlimit name ⟨operator, operand⟩
                    (htold ⟨operator, operand⟩ hasks) with
                    ⟨hcount, r, hclass, hchecked⟩ | ⟨hcount, hchecked⟩
                  · dsimp only at hchecked ⊢
                    rw [hchecked]
                    exact .miscount r ⟨operator, operand⟩ hasks hcount hclass
                  · dsimp only at hchecked ⊢
                    rw [hchecked]
                    exact .asks ⟨operator, operand⟩ hasks hcount
  | _ =>
      refine .noForm _ ?_ rfl
      rintro ⟨token, operand, entries, heq, _⟩
      cases heq

theorem read_of_not_isTold (hlimit : settings.HasLimit) (name : String)
    (hsilent : ¬ v.IsTold settings) : read settings name v = .error .longNumber := by
  unfold Value.IsTold at hsilent
  push Not at hsilent
  obtain ⟨asked, ⟨entries, rfl, htoken, hoperand⟩, hsilent⟩ := hsilent
  have hoperator := Value.asOperator?_eq_some_iff.2 (rfl : Value.text asked.operator.token = _)
  simp only [read, htoken, hoperand, hoperator, checkCount_of_not_isTold hlimit name hsilent, bind,
    Except.bind]

end Request

/-! ### Judging a value -/

namespace Filter

variable {schema : Schema} {settings : Settings} {f : Filter} {m : Model} {v : Value}
  {asked : Request}

/-- A column has too many segments, or one, or two of which the first is the name of a relation. -/
theorem column_cases (f : Filter) :
    2 ≤ f.column.toList.count '.' ∨ '.' ∉ f.column.toList ∨
      ∃ rel column, f.column = rel ++ "." ++ column ∧ '.' ∉ rel.toList ∧ '.' ∉ column.toList := by
  have hlength : f.segments.length = f.column.toList.count '.' + 1 := Text.length_pieces '.' _
  rcases Nat.lt_or_ge (f.column.toList.count '.') 2 with hcount | hcount
  · refine .inr ?_
    by_cases hdot : '.' ∈ f.column.toList
    · have hpositive := List.count_pos_iff.2 hdot
      obtain ⟨rel, column, hsegments⟩ := List.length_eq_two.1 (show f.segments.length = 2 by omega)
      exact .inr ⟨rel, column, Text.pieces_dot_eq_pair_iff.1 hsegments⟩
    · exact .inl hdot
  · exact .inl hcount

theorem not_objects_form {token operand : Value} (h : v.Asks token operand) :
    ¬ f.Objects schema settings v .form :=
  not_not_intro ⟨token, operand, h⟩

theorem not_objects_operator {operator : Operator} {operand : Value}
    (h : v.Asks (.text operator.token) operand) : ¬ f.Objects schema settings v .operator := by
  rintro ⟨token, operand, h', hbad⟩
  exact hbad operator (h'.eq h).1

theorem not_objects_count (h : v.Asks (.text asked.operator.token) asked.operand)
    (hcount : ¬ asked.Miscounts settings) : ¬ f.Objects schema settings v .count := by
  rintro ⟨⟨operator, operand⟩, h', hcount'⟩
  obtain ⟨htoken, hoperand⟩ := h'.eq h
  have hoperator : some operator = some asked.operator := by
    rw [← Operator.ofToken?_token, Value.text.inj htoken, Operator.ofToken?_token]
  obtain rfl := Option.some.inj hoperator
  obtain rfl : operand = asked.operand := hoperand
  exact hcount hcount'

/-- Where there are not too many segments, a value is read or turned down for the first reason that
is about the value alone. -/
theorem read_cases (hlimit : settings.HasLimit) (htold : v.IsTold settings)
    (hdepth : ¬ f.Objects schema settings v .depth) :
    (∃ o r, o ≠ .depth ∧ f.ObjectsFirst schema settings v o ∧ r.detail.errorClass = o.errorClass ∧
        Request.read settings f.name v = .error (.rejected r)) ∨
      ∃ asked, Request.read settings f.name v = .ok asked ∧
        ∀ o ∈ [Objection.depth, .form, .operator, .count], ¬ f.Objects schema settings v o := by
  have hreading := Request.reading hlimit f.name htold
  generalize hread : Request.read settings f.name v = x at hreading
  cases hreading with
  | noForm r h hclass =>
      refine .inl ⟨.form, r, nofun, ⟨h, fun p hp => ?_⟩, hclass, rfl⟩
      obtain rfl := List.mem_singleton.1 hp
      exact hdepth
  | noOperator r token operand h hbad hclass =>
      have hfirst : ∀ p ∈ [Objection.depth, .form], ¬ f.Objects schema settings v p := by
        simp [hdepth, not_objects_form h]
      exact .inl ⟨.operator, r, nofun, ⟨⟨token, operand, h, hbad⟩, hfirst⟩, hclass, rfl⟩
  | miscount r asked h hcount hclass =>
      have hfirst : ∀ p ∈ [Objection.depth, .form, .operator], ¬ f.Objects schema settings v p := by
        simp [hdepth, not_objects_form h, not_objects_operator h]
      exact .inl ⟨.count, r, nofun, ⟨⟨asked, h, hcount⟩, hfirst⟩, hclass, rfl⟩
  | asks asked h hcount =>
      refine .inr ⟨asked, rfl, ?_⟩
      simp [hdepth, not_objects_form h, not_objects_operator h, not_objects_count h hcount]

theorem relation_cases (f : Filter) (name : String) :
    (∃ r, r.detail.errorClass = .unknownRelation ∧ f.relation name = .error (.rejected r)) ∧
        (∀ e ∈ f.owner, e.relation? name = none) ∨
      ∃ e r, f.owner = some e ∧ e.relation? name = some r ∧ f.relation name = .ok r := by
  unfold relation
  cases howner : f.owner with
  | none => exact .inl ⟨⟨.noOwner f.name name, rfl, rfl⟩, nofun⟩
  | some e =>
      cases hrelation : e.relation? name with
      | none =>
          refine .inl ⟨⟨.undeclared f.name name e.label, rfl, by simp [hrelation]⟩, fun d hd => ?_⟩
          rw [← Option.some.inj hd, hrelation]
      | some r => exact .inr ⟨e, r, rfl, hrelation, by simp [hrelation]⟩

/-- What becomes of a value: it is turned down for the first reason that holds, or none holds and
whatever else it fails with is no error of a filter. -/
inductive Judged (schema : Schema) (settings : Settings) (f : Filter) (v : Value) {α : Type} :
    Except Fault α → Prop where
  | objects (o : Objection) (r : Rejection) (h : f.ObjectsFirst schema settings v o)
      (hclass : r.detail.errorClass = o.errorClass)
      (hdepth : o = .depth →
        r.detail = .unsupportedDepth (some (f.column.toList.count '.'))) :
      Judged schema settings f v (.error (.rejected r))
  | passes (x : Except Fault α) (h : ∀ o, ¬ f.Objects schema settings v o)
      (hforeign : FailsWith Fault.IsForeign x) : Judged schema settings f v x

theorem Judged.bind_foreign {α β : Type} {x : Except Fault α} {g : α → Except Fault β}
    (h : Judged schema settings f v x) (hg : ∀ a, FailsWith Fault.IsForeign (g a)) :
    Judged schema settings f v (x >>= g) := by
  cases h with
  | objects o r h hclass hdepth => exact .objects o r h hclass hdepth
  | passes x h hforeign => exact .passes _ h (hforeign.bind hg)

theorem forall_not_objects
    (hnone : ∀ o ∈ [Objection.depth, .form, .operator, .count], ¬ f.Objects schema settings v o)
    (hrelation : ¬ f.Objects schema settings v .relation)
    (hcolumn : ¬ f.Objects schema settings v .column) (o : Objection) :
    ¬ f.Objects schema settings v o := by
  cases o with
  | relation => exact hrelation
  | column => exact hcolumn
  | _ => exact hnone _ (by decide)

section Related

variable {rel column : String} (hcolumn : f.column = rel ++ "." ++ column)
  (hrel : '.' ∉ rel.toList) (hdot : '.' ∉ column.toList)

include hcolumn hrel hdot

theorem eq_of_column_eq {other rest : String} (h : f.column = other ++ "." ++ rest)
    (hother : '.' ∉ other.toList) (hrest : '.' ∉ rest.toList) : other = rel ∧ rest = column := by
  have hpieces : [other, rest] = [rel, column] :=
    (Text.pieces_dot_eq_pair_iff.2 ⟨h, hother, hrest⟩).symm.trans
      (Text.pieces_dot_eq_pair_iff.2 ⟨hcolumn, hrel, hdot⟩)
  simpa using hpieces

theorem objects_relation_iff :
    f.Objects schema settings v .relation ↔ ∀ e ∈ f.owner, e.relation? rel = none := by
  constructor
  · rintro ⟨other, rest, heq, hother, hrest, hundeclared⟩
    rwa [(eq_of_column_eq hcolumn hrel hdot heq hother hrest).1] at hundeclared
  · exact fun hundeclared => ⟨rel, column, hcolumn, hrel, hdot, hundeclared⟩

theorem not_hasForeignColumn (h : ∀ e ∈ f.owner, e.relation? rel = none) :
    ¬ f.HasForeignColumn schema := by
  rintro ⟨other, rest, e, r, _, _, heq, hother, hrest, he, hr, _⟩
  obtain ⟨rfl, rfl⟩ := eq_of_column_eq hcolumn hrel hdot heq hother hrest
  cases hr.symm.trans (h e he)

/-- Where the owner has the relation, what it leads to decides whether the column is one of another
table. -/
theorem hasForeignColumn_iff {e : Entity} {r : Relation} (he : f.owner = some e)
    (hr : e.relation? rel = some r) : f.HasForeignColumn schema ↔ ∃ target join,
      schema.openLink r = .ok (target, join) ∧ (column = "" ∨ r.storageName ≠ target.table) := by
  constructor
  · rintro ⟨other, rest, e', r', target, join, heq, hother, hrest, he', hr', hfound⟩
    obtain ⟨rfl, rfl⟩ := eq_of_column_eq hcolumn hrel hdot heq hother hrest
    obtain rfl := Option.some.inj (he.symm.trans he')
    obtain rfl := Option.some.inj (hr.symm.trans hr')
    exact ⟨target, join, hfound⟩
  · rintro ⟨target, join, hfound⟩
    exact ⟨rel, column, e, r, target, join, hcolumn, hrel, hdot, he, hr, hfound⟩

/-- Through a relation, what could be read is turned down by the relation and the column only. -/
theorem conditionOf_related_cases (m : Model) (hread : Request.read settings f.name v = .ok asked) :
    ((∀ e ∈ f.owner, e.relation? rel = none) ∧ ∃ r, r.detail.errorClass = .unknownRelation ∧
        f.relation rel = .error (.rejected r) ∧
          (f.conditionOf schema m asked).result = .error (.rejected r)) ∨
      (∃ e ∈ f.owner, ∃ r, e.relation? rel = some r) ∧
        (f.HasForeignColumn schema ∧ (∃ qualified table, (f.conditionOf schema m asked).result =
            .error (.rejected (.foreignColumn qualified table))) ∨
          ¬ f.HasForeignColumn schema ∧
            FailsWith Fault.IsForeign (f.conditionOf schema m asked).result) := by
  have hsegments : f.segments = [rel, column] :=
    Text.pieces_dot_eq_pair_iff.2 ⟨hcolumn, hrel, hdot⟩
  have hresult : (f.conditionOf schema m asked).result = (do
      let r ← f.relation rel
      let link ← schema.openLink r
      let c ← schema.clauseCondition link.1 (asked.clause (r.storageName ++ "." ++ column))
      (schema.closeLink m r link.1 link.2 [c]).result) := by
    simp only [conditionOf, hsegments, Outcome.result_bind, Outcome.result_ofExcept]
  rw [hresult]
  rcases f.relation_cases rel with ⟨⟨r, hclass, hfound⟩, hnowhere⟩ | ⟨e, r, he, hr, hfound⟩
  · rw [hfound]
    exact .inl ⟨hnowhere, r, hclass, rfl, rfl⟩
  · refine .inr ⟨⟨e, he, r, hr⟩, ?_⟩
    rw [hasForeignColumn_iff hcolumn hrel hdot he hr, hfound]
    dsimp only [bind, Except.bind]
    cases hopen : schema.openLink r with
    | error fault =>
        refine .inr ⟨?_, .error (schema.failsWith_openLink r fault hopen)⟩
        rintro ⟨_, _, heq, _⟩
        cases heq
    | ok link =>
        obtain ⟨target, join⟩ := link
        dsimp only
        by_cases hcase : column = "" ∨ r.storageName ≠ target.table
        · rw [schema.clauseCondition_of_fieldPath_eq_error hread (fieldPath_foreign hdot hcase)]
          exact .inl ⟨⟨target, join, rfl, hcase⟩, _, _, rfl⟩
        · refine .inr ⟨?_, ?_⟩
          · rintro ⟨target', join', heq, hcase'⟩
            obtain ⟨rfl, rfl⟩ := Prod.mk.inj (Except.ok.inj heq)
            exact hcase hcase'
          · push Not at hcase
            rw [hcase.2, clauseCondition_qualified schema target hread hcase.1 hdot]
            exact (schema.failsWith_clauseCondition_asked target hread hdot).bind fun c =>
              schema.failsWith_closeLink m r target join [c]

theorem judged_conditionOf_related (hread : Request.read settings f.name v = .ok asked)
    (hnone : ∀ o ∈ [Objection.depth, .form, .operator, .count], ¬ f.Objects schema settings v o) :
    Judged schema settings f v (f.conditionOf schema m asked).result := by
  have hundeclared : f.Objects schema settings v .relation ↔
      ∀ e ∈ f.owner, e.relation? rel = none :=
    objects_relation_iff hcolumn hrel hdot
  rcases conditionOf_related_cases hcolumn hrel hdot m hread with
    ⟨hnowhere, r, hclass, _, hfails⟩ | ⟨⟨e, he, r, hr⟩, hcases⟩
  · rw [hfails]
    exact .objects .relation r ⟨hundeclared.2 hnowhere, hnone⟩ hclass
      fun heq => absurd heq (by decide)
  · have hdeclared : ¬ f.Objects schema settings v .relation := by
      intro hobjects
      cases hr.symm.trans (hundeclared.1 hobjects e he)
    rcases hcases with ⟨hhas, qualified, table, hfails⟩ | ⟨hhas, hfails⟩
    · have hfirst : ∀ o ∈ [Objection.depth, .form, .operator, .count] ++ [.relation],
          ¬ f.Objects schema settings v o :=
        List.forall_mem_append.2 ⟨hnone, List.forall_mem_singleton.2 hdeclared⟩
      rw [hfails]
      exact .objects .column _ ⟨hhas, hfirst⟩ rfl fun heq => absurd heq (by decide)
    · exact .passes _ (forall_not_objects hnone hdeclared hhas) hfails

end Related

theorem HasForeignColumn.count_dot (h : f.HasForeignColumn schema) :
    f.column.toList.count '.' = 1 := by
  obtain ⟨rel, column, _, _, _, _, hcolumn, hrel, hdot, _⟩ := h
  rw [hcolumn]
  simp [String.toList_append, List.count_eq_zero_of_not_mem hrel,
    List.count_eq_zero_of_not_mem hdot]

theorem judged_conditionOf_direct (hread : Request.read settings f.name v = .ok asked)
    (hdot : '.' ∉ f.column.toList)
    (hnone : ∀ o ∈ [Objection.depth, .form, .operator, .count], ¬ f.Objects schema settings v o) :
    Judged schema settings f v (f.conditionOf schema m asked).result := by
  have hsegments : f.segments = [f.column] := Text.pieces_of_not_mem hdot
  have hundotted {rel column : String} : f.column ≠ rel ++ "." ++ column := by
    intro heq
    rw [heq] at hdot
    simp [String.toList_append] at hdot
  refine .passes _ (forall_not_objects hnone ?_ ?_) ?_
  · rintro ⟨rel, column, heq, _⟩
    exact hundotted heq
  · intro hhas
    have hcount := HasForeignColumn.count_dot hhas
    rw [List.count_eq_zero_of_not_mem hdot] at hcount
    cases hcount
  · rw [conditionOf, hsegments]
    exact schema.failsWith_clauseCondition_asked m hread hdot

theorem judged_condition_deep (m : Model) (hdepth : f.Objects schema settings v .depth) :
    Judged schema settings f v (f.condition schema settings m v).result := by
  have hlength : f.segments.length = f.column.toList.count '.' + 1 := Text.length_pieces '.' _
  have htoo : maxSegments < f.segments.length := by
    change 2 ≤ f.column.toList.count '.' at hdepth
    rw [hlength, maxSegments]
    omega
  simp only [condition, if_pos htoo]
  refine .objects .depth _ ⟨hdepth, List.forall_mem_nil _⟩ rfl fun _ => ?_
  rw [Rejection.detail, hlength, Nat.add_sub_cancel]

/-- A column with few segments is looked at only once the value has been read. -/
theorem result_condition_of_not_deep (m : Model) (hdepth : ¬ f.Objects schema settings v .depth) :
    (f.condition schema settings m v).result = (do
      let asked ← Request.read settings f.name v
      let c ← (f.conditionOf schema m asked).result
      let _ ← asked.operand.written
      return (asked, c)) := by
  have hfew : ¬ maxSegments < f.segments.length := by
    have hlength : f.segments.length = f.column.toList.count '.' + 1 := Text.length_pieces '.' _
    change ¬ 2 ≤ f.column.toList.count '.' at hdepth
    rw [hlength, maxSegments]
    omega
  simp only [condition, if_neg hfew, Outcome.result_bind, Outcome.result_ofExcept]
  rfl

/-- A value is turned down for the first reason that holds, and for nothing else. -/
theorem judged_condition (hlimit : settings.HasLimit) (m : Model)
    (htold : v.IsTold settings ∨ f.Objects schema settings v .depth) :
    Judged schema settings f v (f.condition schema settings m v).result := by
  by_cases hdepth : f.Objects schema settings v .depth
  · exact judged_condition_deep m hdepth
  · rw [result_condition_of_not_deep m hdepth]
    rcases read_cases hlimit (htold.resolve_right hdepth) hdepth with
      ⟨o, r, hne, hfirst, hclass, hread⟩ | ⟨asked, hread, hnone⟩
    · rw [hread]
      exact .objects o r hfirst hclass fun heq => absurd heq hne
    · have hjudged : Judged schema settings f v (f.conditionOf schema m asked).result := by
        rcases f.column_cases with hmany | hdot | ⟨rel, column, hcolumn, hrel, hdot⟩
        · exact absurd hmany hdepth
        · exact judged_conditionOf_direct hread hdot hnone
        · exact judged_conditionOf_related hcolumn hrel hdot hread hnone
      rw [hread]
      exact hjudged.bind_foreign fun c =>
        (asked.operand.failsWith_written).bind fun _ => .ok (asked, c)

theorem ObjectsFirst.unique {o p : Objection} (ho : f.ObjectsFirst schema settings v o)
    (hp : f.ObjectsFirst schema settings v p) : o = p := by
  by_contra hne
  have hbefore : p ∈ Objection.all.takeWhile (· ≠ o) ∨ o ∈ Objection.all.takeWhile (· ≠ p) := by
    revert hne
    cases o <;> cases p <;> decide
  rcases hbefore with hbefore | hbefore
  · exact ho.2 p hbefore hp.1
  · exact hp.2 o hbefore ho.1

/-- Relations of a model of a coherent schema name the tables that they lead to, so a column is one
of another table only if nothing stands behind the relation. -/
theorem HasForeignColumn.exists_eq (hschema : schema.Coherent)
    (howner : ∀ e ∈ f.owner, ∃ m ∈ schema.models, e.IsOf schema m)
    (h : f.HasForeignColumn schema) : ∃ rel e r, f.column = rel ++ "." ∧ '.' ∉ rel.toList ∧
      f.owner = some e ∧ e.relation? rel = some r := by
  obtain ⟨rel, column, e, r, target, join, hcolumn, hrel, _, he, hr, hopen, hcase⟩ := h
  obtain ⟨m, hm, hof⟩ := howner e he
  obtain ⟨x, hx⟩ := Schema.exists_makes_of_relationTable hof.relations hr
  have hstorage :=
    Schema.storageName_eq_of_makes hschema hm hx (Schema.openLink_eq_ok_iff.1 hopen).1
  obtain rfl := hcase.resolve_right (not_not_intro hstorage)
  exact ⟨rel, e, r, hcolumn.trans String.append_empty, hrel, he, hr⟩

/-- Behind a relation by a reference or by links nothing is a column of another table. -/
theorem hasForeignColumn_of_isKeyed {e : Entity} {r : Relation} {x : Member}
    (hschema : schema.Coherent) (hm : m ∈ schema.models) (hcolumn : f.column = rel ++ ".")
    (hrel : '.' ∉ rel.toList) (he : f.owner = some e) (hr : e.relation? rel = some r)
    (hx : schema.Makes m x r) (hkeyed : x.isKeyed = true) : f.HasForeignColumn schema := by
  obtain ⟨target, join, _, hopen, _⟩ := Schema.exists_openLink hschema hm hx.1 hkeyed hx.2
  exact ⟨rel, "", e, r, target, join, hcolumn.trans String.append_empty.symm, hrel, by simp, he, hr,
    hopen, .inl rfl⟩

/-- A filter turns a value down exactly if it has a reason to, and for the first that it has: a
column with too many segments, whatever the value; a value that does not ask for an operator and an
operand, or for one of the operators with as many tokens as it takes; a relation that the owner does
not have; what is no column of the table that the relation leads to. The owner may be any entity,
and the limit on values any number. Only where a number has too many digits for what is written to
count the tokens, the filter fails with that instead, if its column has few segments. Of an entity
of a model of a coherent schema, and a relation by a reference or by links, the last reason is that
no column follows the relation. -/
theorem apply_rejects (hlimit : settings.HasLimit) (q : Query) :
    (v.IsTold settings ∨ f.Objects schema settings v .depth →
      ((∃ r, (f.apply schema settings q v).result = .error (.rejected r)) ↔
        ∃ o, f.Objects schema settings v o) ∧
      ∀ r, (f.apply schema settings q v).result = .error (.rejected r) →
        ∃ o, f.ObjectsFirst schema settings v o ∧ r.detail.errorClass = o.errorClass ∧
          (o = .depth → r.detail = .unsupportedDepth (some (f.column.toList.count '.')))) ∧
      (¬ (v.IsTold settings ∨ f.Objects schema settings v .depth) →
        (f.apply schema settings q v).result = .error .longNumber) ∧
      (schema.Coherent →
        (∀ e ∈ f.owner, ∃ m ∈ schema.models, e.IsOf schema m ∧
          ∀ rel r x, f.column = rel ++ "." → e.relation? rel = some r → schema.Makes m x r →
            x.isKeyed = true) →
        (f.Objects schema settings v .column ↔ ∃ rel e r, f.column = rel ++ "." ∧
          '.' ∉ rel.toList ∧ f.owner = some e ∧ e.relation? rel = some r)) := by
  simp only [result_apply_eq_error_iff]
  refine ⟨fun htold => ?_, fun hsilent => ?_, fun hschema howner => ⟨fun hhas => ?_, ?_⟩⟩
  · have hjudged : Judged schema settings f v (f.condition schema settings q.model v).result :=
      judged_condition hlimit q.model htold
    generalize (f.condition schema settings q.model v).result = x at hjudged
    cases hjudged with
    | objects o r h hclass hdepth =>
        refine ⟨iff_of_true ⟨r, rfl⟩ ⟨o, h.1⟩, fun r' hr => ?_⟩
        obtain rfl := Fault.rejected.inj (Except.error.inj hr)
        exact ⟨o, h, hclass, hdepth⟩
    | passes x h hforeign =>
        have hpasses (r : Rejection) : x ≠ .error (.rejected r) := by
          intro hr
          cases hforeign _ hr
        exact ⟨iff_of_false (fun ⟨r, hr⟩ => hpasses r hr) fun ⟨o, ho⟩ => h o ho,
          fun r hr => absurd hr (hpasses r)⟩
  · obtain ⟨huntold, hdepth⟩ := not_or.1 hsilent
    rw [result_condition_of_not_deep q.model hdepth,
      Request.read_of_not_isTold hlimit f.name huntold]
    rfl
  · refine HasForeignColumn.exists_eq hschema (fun e he => ?_) hhas
    obtain ⟨m, hm, hof, _⟩ := howner e he
    exact ⟨m, hm, hof⟩
  · rintro ⟨rel, e, r, hcolumn, hrel, he, hr⟩
    obtain ⟨m, hm, hof, hkeyed⟩ := howner e he
    obtain ⟨x, hx⟩ := Schema.exists_makes_of_relationTable hof.relations hr
    exact hasForeignColumn_of_isKeyed hschema hm hcolumn hrel he hr hx
      (hkeyed rel r x hcolumn hr hx)

end Filter

namespace Blog

theorem hasLimit : (Settings.ofProject .null).HasLimit :=
  .inr ⟨500, by rfl⟩

/-- No number has to be written for a text, and the limit that projects set by default can be. -/
theorem isTold_notBob : notBob.IsTold (.ofProject .null) := by
  rintro ⟨operator, operand⟩ ⟨_, heq, _, hoperand⟩
  obtain rfl := Value.mapping.inj heq
  obtain rfl := Option.some.inj hoperand
  exact ⟨fun _ => rfl, fun _ _ => by rfl⟩

def byWriter : Filter :=
  { byAuthor with column := "writer." }

theorem asks_notBob : notBob.Asks (.text Operator.notEqual.token) (.text "Bob") :=
  ⟨_, rfl, rfl, rfl⟩

theorem not_objects_count_notBob (f : Filter) (settings : Settings) :
    ¬ f.Objects schema settings notBob .count :=
  @Filter.not_objects_count _ _ _ _ ⟨.notEqual, .text "Bob"⟩ asks_notBob
    (by simp [Request.Miscounts])

theorem objectsFirst_byWriter :
    byWriter.ObjectsFirst schema (.ofProject .null) notBob .relation := by
  have hundeclared : ∀ e ∈ byWriter.owner, e.relation? "writer" = none := by
    intro e he
    obtain rfl := Option.some.inj he
    rfl
  refine ⟨⟨"writer", "", by decide, by decide, by decide, hundeclared⟩, ?_⟩
  have hfirst : ∀ p ∈ [Objection.depth, .form, .operator, .count],
      ¬ byWriter.Objects schema (.ofProject .null) notBob p := by
    have hdepth : ¬ byWriter.Objects schema (.ofProject .null) notBob .depth :=
      Nat.not_le.2 (by decide)
    simp [hdepth, Filter.not_objects_form asks_notBob, Filter.not_objects_operator asks_notBob,
      not_objects_count_notBob]
  exact hfirst

/-- The filter of posts by the names of their authors, with a relation that names another table than
that of the authors. -/
def byPerson : Filter :=
  { byAuthor with
    owner := some ⟨⟨0, 0⟩, "blog.Post", "blog.post", "posts",
      [("author", { toAuthor with storageName := "people" })]⟩ }

end Blog

open Blog in
/-- A text is turned down for its form. Of a relation that posts do not have, that is found first,
and only then that no column follows. -/
theorem Filter.apply_rejects_blog :
    (∃ r, (byAuthor.apply schema (.ofProject .null) (.all post) (.text "Bob")).result =
      .error (.rejected r) ∧ r.detail.errorClass = .malformed) ∧
    ∃ r, (byWriter.apply schema (.ofProject .null) (.all post) notBob).result =
      .error (.rejected r) ∧ r.detail.errorClass = .unknownRelation := by
  have hform : byAuthor.ObjectsFirst schema (.ofProject .null) (.text "Bob") .form := by
    constructor
    · rintro ⟨_, _, _, heq, _⟩
      cases heq
    · rintro p hp
      obtain rfl : p = .depth := List.mem_singleton.1 hp
      exact Nat.not_le.2 (by decide)
  have htold : (Value.text "Bob").IsTold (.ofProject .null) := by
    rintro asked ⟨_, heq, _⟩
    cases heq
  constructor
  · obtain ⟨hiff, hclass⟩ :=
      (@apply_rejects schema _ byAuthor _ hasLimit (.all post)).1 (.inl htold)
    obtain ⟨r, hr⟩ := hiff.2 ⟨.form, hform.1⟩
    obtain ⟨o, hfirst, ho, _⟩ := hclass r hr
    obtain rfl := hfirst.unique hform
    exact ⟨r, hr, ho⟩
  · obtain ⟨hiff, hclass⟩ :=
      (@apply_rejects schema _ byWriter _ hasLimit (.all post)).1 (.inl isTold_notBob)
    obtain ⟨r, hr⟩ := hiff.2 ⟨.relation, objectsFirst_byWriter.1⟩
    obtain ⟨o, hfirst, ho, _⟩ := hclass r hr
    obtain rfl := hfirst.unique objectsFirst_byWriter
    exact ⟨r, hr, ho⟩

open Blog in
/-- A relation that names another table is turned down for its column, though one follows it and
there is no other reason. -/
theorem Filter.apply_rejects_otherTable :
    (byPerson.apply schema (.ofProject .null) (.all post) notBob).result =
      .error (.rejected (.foreignColumn "people.name" "authors")) ∧
    (∀ o, byPerson.Objects schema (.ofProject .null) notBob o → o = .column) ∧
    ¬ ∃ rel, byPerson.column = rel ++ "." := by
  have hcolumn : byPerson.column = "author" ++ "." ++ "name" := by decide
  refine ⟨by rfl, fun o ho => ?_, ?_⟩
  · cases o with
    | depth => exact absurd ho (Nat.not_le.2 (by decide))
    | form => exact absurd ho (not_objects_form asks_notBob)
    | operator => exact absurd ho (not_objects_operator asks_notBob)
    | count => exact absurd ho (not_objects_count_notBob _ _)
    | relation =>
        rw [objects_relation_iff hcolumn (by decide) (by decide)] at ho
        cases ho _ rfl
    | column => rfl
  · rintro ⟨rel, h⟩
    have hlast : byPerson.column.toList.getLast? = some '.' := by
      rw [h]
      simp [String.toList_append]
    revert hlast
    decide

end RowFilter
