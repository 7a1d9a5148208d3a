import RowFilter.Proofs.Failures
import RowFilter.Proofs.Indices

/-!
Sources of errors. What goes wrong inside a query is about no filter, and what a filter turns down
is about that filter, so an error that a registry ends in is about the key under which a value came
in, if it is about a filter at all. Under this key there is a parameter, whose name begins with the
head that the settings ask for. The document of the error always names the parameter as it would be
with the head `filter`, which is the one that was sent exactly if the settings ask for that head.
-/

namespace RowFilter

namespace Fault

def rejection? : Fault → Option Rejection
  | rejected r => some r
  | _ => none

def key? (fault : Fault) : Option String :=
  fault.rejection?.bind Rejection.key

def IsForeign (fault : Fault) : Prop :=
  fault.rejection? = none

/-- Whether a fault is about no filter, or about that of a key. -/
def IsAbout (key : Option String) (fault : Fault) : Prop :=
  fault.key? = none ∨ fault.key? = key

theorem IsForeign.isAbout {fault : Fault} (h : fault.IsForeign) (key : Option String) :
    fault.IsAbout key := by
  rw [IsForeign] at h
  rw [IsAbout, key?, h]
  exact .inl rfl

def IsOwn (key : String) (fault : Fault) : Prop :=
  fault.IsForeign ∨ fault.key? = some key

theorem IsOwn.isAbout {fault : Fault} {key : String} (h : fault.IsOwn key) :
    fault.IsAbout (some key) :=
  h.elim (fun hforeign => hforeign.isAbout _) .inr

end Fault

/-- Whether everything that an operation fails with has a property. -/
def FailsWith {α : Type} (p : Fault → Prop) (x : Except Fault α) : Prop :=
  ∀ fault, x = .error fault → p fault

namespace FailsWith

variable {α β : Type} {p p' : Fault → Prop} {x : Except Fault α} {f : α → Except Fault β}
  {fault : Fault}

theorem ok (a : α) : FailsWith p (.ok a) :=
  nofun

theorem error (h : p fault) : FailsWith p (.error fault : Except Fault α) := by
  rintro _ ⟨⟩
  exact h

theorem mono (hx : FailsWith p x) (h : ∀ fault, p fault → p' fault) : FailsWith p' x :=
  fun fault hfault => h fault (hx fault hfault)

theorem bind (hx : FailsWith p x) (hf : ∀ a, FailsWith p (f a)) : FailsWith p (x >>= f) := by
  cases x with
  | error fault => exact error (hx fault rfl)
  | ok a => exact hf a

theorem map (hx : FailsWith p x) (g : α → β) : FailsWith p (g <$> x) := by
  cases x with
  | error fault => exact error (hx fault rfl)
  | ok a => exact ok (g a)

theorem outcome_bind {x : Outcome α} {f : α → Outcome β} (hx : FailsWith p x.result)
    (hf : ∀ a, FailsWith p (f a).result) : FailsWith p (x >>= f).result := by
  rw [Outcome.result_bind]
  exact hx.bind hf

theorem isAbout (h : FailsWith Fault.IsForeign x) (key : Option String) :
    FailsWith (Fault.IsAbout key) x :=
  h.mono fun _ hforeign => hforeign.isAbout key

theorem of_none (h : FailsWith (Fault.IsAbout none) x) (key : Option String) :
    FailsWith (Fault.IsAbout key) x :=
  h.mono fun _ hnone => .inl (hnone.elim id id)

theorem of_isOwn {key : String} (h : FailsWith (Fault.IsOwn key) x) :
    FailsWith (Fault.IsAbout (some key)) x :=
  h.mono fun _ hown => hown.isAbout

end FailsWith

/-! ### What goes wrong inside a query -/

theorem failsWith_fieldPath (table column : String) :
    FailsWith (Fault.IsAbout none) (fieldPath table column) := by
  unfold fieldPath
  split
  · exact .ok _
  · split
    · exact .ok _
    · exact .error (.inl rfl)

theorem Lookup.failsWith_follow (all : List String) (typeName : String) (c : ColumnRef)
    (names : List String) : FailsWith Fault.IsForeign (follow all typeName c names) := by
  induction names generalizing typeName c with
  | nil => exact .ok _
  | cons name rest ih =>
      unfold follow
      split
      · exact .ok _
      · split
        · exact .ok _
        · exact .error rfl
      · next heq =>
        cases heq
        split
        · exact ih _ _
        · exact .error rfl

namespace Value

theorem holds_told {p : Fault → Prop} {fault : Fault} (h : p fault) (hlong : p .longNumber)
    (v : Value) : p (v.told fault) := by
  unfold told
  split
  · exact h
  · exact hlong

theorem failsWith_written (v : Value) : FailsWith Fault.IsForeign v.written := by
  unfold written
  split
  · exact .ok _
  · exact .error rfl

theorem failsWith_readInteger (field : String) (up : Bool) (v : Value) :
    FailsWith Fault.IsForeign (v.readInteger field up) := by
  unfold readInteger
  split
  · exact .ok _
  · exact .ok _
  · split
    · exact .ok _
    · exact .error rfl
  · split
    · exact .ok _
    · split <;> exact .error rfl
    · exact .error rfl
  · have hnumber : (Fault.notNumber field v).IsForeign := rfl
    exact .error (holds_told hnumber rfl v)

theorem failsWith_readBoolean (v : Value) : FailsWith Fault.IsForeign v.readBoolean := by
  unfold readBoolean
  dsimp only
  split
  · exact .ok _
  · exact .error rfl

theorem failsWith_readMoment {α : Type} (read : String → Except Moment.ReadError α) (v : Value) :
    FailsWith Fault.IsForeign (v.readMoment read) := by
  unfold readMoment
  split
  · next s =>
    cases read s with
    | ok a => exact .ok a
    | error reason => exact .error rfl
  · exact .error rfl

theorem failsWith_items (v : Value) : FailsWith Fault.IsForeign v.items := by
  unfold items
  split
  · exact .ok _
  · exact .ok _
  · exact .ok _
  · exact .error rfl

end Value

namespace ColumnRef

theorem failsWith_readOperand (c : ColumnRef) (up : Bool) (v : Value) :
    FailsWith Fault.IsForeign (c.readOperand up v) := by
  unfold readOperand
  split
  · exact .ok _
  · split
    · exact v.failsWith_written.map _
    · exact (Value.failsWith_readInteger _ _ v).map _
    · exact (Value.failsWith_readInteger _ _ v).map _
    · exact (Value.failsWith_readBoolean v).map _
    · exact (Value.failsWith_readMoment _ v).map _
    · exact (Value.failsWith_readMoment _ v).map _
    · exact (Value.failsWith_readMoment _ v).map _

theorem failsWith_readOperands (c : ColumnRef) (vs : List Value) :
    FailsWith Fault.IsForeign (c.readOperands vs) := by
  induction vs with
  | nil => exact .ok _
  | cons v vs ih =>
      exact (c.failsWith_readOperand false v).bind fun _ => ih.bind fun _ => .ok _

theorem failsWith_verdict (c : ColumnRef) (t : Test) : FailsWith Fault.IsForeign (c.verdict t) := by
  unfold verdict
  split
  · exact .error rfl
  · split
    · exact .error rfl
    · split
      · exact .error rfl
      · exact .ok _

end ColumnRef

namespace Schema

theorem failsWith_resolveNames (schema : Schema) (m : Model) (names : List String) :
    FailsWith Fault.IsForeign (schema.resolveNames m names) := by
  unfold resolveNames
  split
  · exact .error rfl
  · exact Lookup.failsWith_follow _ _ _ _

theorem failsWith_onColumn (schema : Schema) (m : Model) (path lookup : String)
    {build : ColumnRef → Except Fault Test} (h : ∀ c, FailsWith Fault.IsForeign (build c)) :
    FailsWith Fault.IsForeign (schema.onColumn m path lookup build) :=
  (schema.failsWith_resolveNames m _).bind fun c => (h c).bind fun _ => .ok _

theorem failsWith_comparison (schema : Schema) (m : Model) (path : String)
    (operator operand : Value) :
    FailsWith (Fault.IsAbout none) (schema.comparison m path operator operand) := by
  unfold comparison
  split
  · exact .error (.inl rfl)
  · exact .error (.inl rfl)
  · refine FailsWith.isAbout ?_ none
    exact (schema.failsWith_resolveNames m _).bind fun c =>
      (c.failsWith_readOperand false operand).bind fun _ => .ok _
  · split
    · split
      · exact .ok _
      · refine FailsWith.isAbout (schema.failsWith_onColumn m path _ fun c => ?_) none
        exact (c.failsWith_readOperand _ operand).bind fun _ => .ok _
    · split_ifs
      · exact .error (.inl rfl)
      · exact .ok _
      · exact (schema.failsWith_onColumn m path _ fun _ => .ok _).isAbout none
  · exact .error (Value.holds_told (.inl rfl) (.inl rfl) operator)

theorem failsWith_clauseCondition (schema : Schema) (m : Model) (c : Clause) :
    FailsWith (Fault.IsAbout none) (schema.clauseCondition m c) := by
  have hpath (column : String) := failsWith_fieldPath m.table column
  cases c with
  | compare column operator operand =>
      exact (hpath column).bind fun path => schema.failsWith_comparison m path operator operand
  | isIn column operands =>
      refine (hpath column).bind fun path => ?_
      refine (operands.failsWith_items.isAbout none).bind fun items => ?_
      refine FailsWith.isAbout (schema.failsWith_onColumn m path _ fun c => ?_) none
      exact (c.failsWith_readOperands items).map _
  | between column bounds =>
      have hitems : FailsWith (Fault.IsAbout none)
          (bounds.items.mapError fun _ => Fault.noLength bounds.shape) := by
        cases bounds.items with
        | ok items => exact .ok items
        | error fault => exact .error (.inl rfl)
      refine hitems.bind fun items => ?_
      split
      · refine (hpath column).bind fun path => ?_
        refine FailsWith.isAbout (schema.failsWith_onColumn m path _ fun c => ?_) none
        exact (c.failsWith_readOperand false _).bind fun _ =>
          (c.failsWith_readOperand false _).bind fun _ => .ok _
      · exact .error (.inl rfl)
  | null column =>
      exact (hpath column).bind fun path =>
        (schema.failsWith_onColumn m path _ fun _ => .ok _).isAbout none
  | notNull column =>
      exact (hpath column).bind fun path =>
        (schema.failsWith_onColumn m path _ fun _ => .ok _).isAbout none

theorem failsWith_openLink (schema : Schema) (r : Relation) :
    FailsWith Fault.IsForeign (schema.openLink r) := by
  have hrelated : FailsWith Fault.IsForeign (schema.relatedModel r) := by
    unfold relatedModel
    split
    · exact .ok _
    · exact .error rfl
  exact hrelated.bind fun m => (schema.failsWith_resolveNames m _).bind fun _ => .ok _

theorem failsWith_closeLink (schema : Schema) (m : Model) (r : Relation) (related : Model)
    (join : ColumnRef) (inner : List Condition) :
    FailsWith Fault.IsForeign (schema.closeLink m r related join inner).result := by
  have houter : FailsWith Fault.IsForeign (schema.outerColumn m r.outerKey) := by
    unfold outerColumn
    split
    · exact .ok _
    · exact .error rfl
  exact .outcome_bind (.ok _) fun _ => .outcome_bind houter fun _ => .ok _

end Schema

namespace Condition

mutual

theorem failsWith_verdict : ∀ c : Condition, FailsWith Fault.IsForeign c.verdict
  | never => by
    rw [verdict]
    exact .ok _
  | test column t => by
    rw [verdict]
    exact column.failsWith_verdict t
  | absent a => by
    rw [verdict]
    exact (a.inner.failsWith_verdict a.test).map _
  | linked link inner => by
    rw [verdict]
    exact (failsWith_verdictOfAll inner).bind fun _ => .ok _

theorem failsWith_verdictOfAll : ∀ cs : List Condition, FailsWith Fault.IsForeign (verdictOfAll cs)
  | [] => by
    rw [verdictOfAll]
    exact .ok _
  | c :: cs => by
    rw [verdictOfAll]
    refine (failsWith_verdict c).bind fun found => ?_
    cases found with
    | never => exact .ok _
    | asked overflows => exact (failsWith_verdictOfAll cs).bind fun _ => .ok _

end

end Condition

theorem Query.failsWith_keys (schema : Schema) (q : Query) (db : Database) :
    FailsWith Fault.IsForeign (q.keys schema db) := by
  have hfetch : FailsWith Fault.IsForeign (q.fetch db) := by
    refine (Condition.failsWith_verdictOfAll q.conditions).bind fun found => ?_
    cases found with
    | never => exact .ok _
    | asked overflows =>
        cases overflows with
        | true => exact .error rfl
        | false => exact .ok _
  exact hfetch.bind fun _ => .ok _

/-! ### What a filter turns down -/

theorem Settings.failsWith_exceedsLimit (settings : Settings) (count : Nat) :
    FailsWith Fault.IsForeign (settings.exceedsLimit count) := by
  unfold exceedsLimit
  split
  · exact .ok _
  · split
    · exact .ok _
    · exact .ok _
    · exact .ok _
    · exact .error rfl

namespace Request

theorem failsWith_checkCount (settings : Settings) (name : String) (operator : Operator)
    (operand : Value) :
    FailsWith (Fault.IsOwn name) (checkCount settings name operator operand) := by
  have hsplit : FailsWith (Fault.IsOwn name) (splitValues operand) := by
    unfold splitValues
    split
    · exact .ok _
    · exact .error (.inl rfl)
  unfold checkCount
  split
  · refine hsplit.bind fun tokens => ?_
    dsimp only
    split
    · exact .ok _
    · exact .error (.inr rfl)
  · refine hsplit.bind fun tokens => ?_
    have hexceeds := settings.failsWith_exceedsLimit tokens.length
    refine (hexceeds.mono fun _ => .inl).bind fun exceeds => ?_
    cases exceeds with
    | true => exact .error (Value.holds_told (.inr rfl) (.inl rfl) settings.maxInValues)
    | false => exact .ok _
  · exact .ok _

theorem failsWith_read (settings : Settings) (name : String) (v : Value) :
    FailsWith (Fault.IsOwn name) (read settings name v) := by
  unfold read
  split
  · split
    · exact .error (.inr rfl)
    · exact .error (.inr rfl)
    · split
      · exact .error (.inr rfl)
      · exact (failsWith_checkCount settings name _ _).bind fun _ => .ok _
  · exact .error (.inr rfl)

end Request

namespace Filter

theorem failsWith_relation (f : Filter) (name : String) :
    FailsWith (Fault.IsOwn f.name) (f.relation name) := by
  unfold relation
  split
  · exact .error (.inr rfl)
  · split
    · exact .ok _
    · exact .error (.inr rfl)

theorem failsWith_conditionOf (schema : Schema) (f : Filter) (m : Model) (r : Request) :
    FailsWith (Fault.IsAbout (some f.name)) (f.conditionOf schema m r).result := by
  unfold conditionOf
  split
  · refine .outcome_bind (f.failsWith_relation _).of_isOwn fun relation => ?_
    refine .outcome_bind ((schema.failsWith_openLink relation).isAbout _) fun opened => ?_
    refine .outcome_bind ((schema.failsWith_clauseCondition _ _).of_none _) fun inner => ?_
    exact (schema.failsWith_closeLink _ _ _ _ _).isAbout _
  · exact (schema.failsWith_clauseCondition _ _).of_none _

theorem failsWith_apply (schema : Schema) (settings : Settings) (f : Filter) (q : Query)
    (v : Value) : FailsWith (Fault.IsAbout (some f.name)) (f.apply schema settings q v).result := by
  have hcondition : FailsWith (Fault.IsAbout (some f.name))
      (f.condition schema settings q.model v).result := by
    unfold condition
    dsimp only
    split
    · exact .error (.inr rfl)
    · exact .outcome_bind (Request.failsWith_read settings f.name v).of_isOwn fun r =>
        .outcome_bind (f.failsWith_conditionOf schema q.model r) fun _ =>
          .outcome_bind (r.operand.failsWith_written.isAbout _) fun _ => .ok _
  exact fun fault hfault => hcondition fault (result_apply_eq_error_iff.1 hfault)

end Filter

namespace FilterRegistry

variable {schema : Schema} {settings : Settings} {registry : FilterRegistry} {q : Query}
  {entries : Mapping Value} {failure : Failure} {key : String}

/-- A failure that is about a filter is one of a value that came under the key of the filter. -/
theorem key_of_mem_failures (h : failure ∈ failures schema settings registry q entries)
    (hkey : failure.fault.key? = some key) :
    key ∈ Mapping.keys entries ∧ failure.filter? = registry.get? key := by
  obtain ⟨⟨other, v⟩, hentry, hat⟩ := List.mem_flatMap.1 h
  have hother : other ∈ Mapping.keys entries := List.mem_map_of_mem hentry
  suffices hsame : other = key ∧ failure.filter? = registry.get? other by
    obtain ⟨rfl, hfilter⟩ := hsame
    exact ⟨hother, hfilter⟩
  unfold failuresAt at hat
  dsimp only at hat
  cases hget : registry.get? other with
  | none =>
      rw [hget] at hat
      obtain rfl := List.mem_singleton.1 hat
      exact ⟨Option.some.inj hkey, rfl⟩
  | some f =>
      rw [hget] at hat
      obtain ⟨value, _, hfails⟩ := List.mem_filterMap.1 hat
      unfold failure? at hfails
      split at hfails
      · cases hfails
      · next fault hfault =>
        obtain rfl := Option.some.inj hfails
        refine ⟨?_, rfl⟩
        rcases f.failsWith_apply schema settings q value fault hfault with hnone | hname
        · rw [hkey] at hnone
          cases hnone
        · rw [← key_of_get?_eq_some hget]
          exact Option.some.inj (hname.symm.trans hkey)

end FilterRegistry

namespace Parameters

variable {head key : String} {parameters incoming : Mapping Value} {as : List Assignment}
  {a : Assignment}

/-- The name of a parameter that assigns begins with the head and the name that it assigns to. -/
theorem Assignment.prefix_of_read? {p : String × Value}
    (h : read? (.text head) p.1 p.2 = .ok (some a)) :
    (head ++ "[" ++ a.name ++ "]").toList <+: p.1.toList ∧ a.name ≠ "" := by
  obtain ⟨text, rest, hkey, hhead, hname, _⟩ := read?_eq_ok_some_iff.1 h
  obtain rfl : head = text := Option.some.inj hhead
  obtain ⟨_, hwritten⟩ := BracketKey.read?_eq_some_iff.1 hkey
  refine ⟨?_, hname⟩
  rcases hwritten with hwritten | hwritten <;> rw [hwritten] <;>
    simp [BracketKey.toList_write, bracketed]

theorem Assignment.exists_of_mem_readAll (h : readAll (.text head) parameters = .ok as)
    (ha : a ∈ as) : ∃ p ∈ parameters, read? (.text head) p.1 p.2 = .ok (some a) := by
  induction parameters generalizing as with
  | nil =>
      cases h
      cases ha
  | cons p rest ih =>
      obtain ⟨first, more, hread, hrest, rfl⟩ := readAll_cons_eq_ok_iff.1 h
      rcases List.mem_append.1 ha with hfirst | hmore
      · exact ⟨p, List.mem_cons_self, Option.mem_toList.1 hfirst ▸ hread⟩
      · obtain ⟨other, hother, hassigns⟩ := ih hrest hmore
        exact ⟨other, List.mem_cons_of_mem _ hother, hassigns⟩

/-- What comes in under a key was sent by a parameter whose name begins with the head and the
key. -/
theorem exists_of_mem_keys {settings : Settings} (hhead : settings.queryParam = .text head)
    (h : (filters settings parameters none).result = .ok incoming)
    (hkey : key ∈ Mapping.keys incoming) :
    (∃ p ∈ parameters, (head ++ "[" ++ key ++ "]").toList <+: p.1.toList) ∧ key ≠ "" := by
  obtain ⟨as, hread, rfl⟩ := result_filters_eq_ok_iff.1 h
  rw [headOf, hhead] at hread
  obtain ⟨a, ha, rfl⟩ : ∃ a ∈ as, a.name = key := by
    by_contra hnone
    push Not at hnone
    -- a name that nothing is assigned to is not there
    have hnamed : Assignment.named key as = [] :=
      List.filter_eq_nil_iff.2 fun a ha => by simpa using hnone a ha
    obtain ⟨v, hv⟩ := Mapping.mem_keys_iff.1 hkey
    rw [Collected.find?_result_assignAll, hnamed] at hv
    cases hv
  obtain ⟨p, hp, hassigns⟩ := Assignment.exists_of_mem_readAll hread ha
  obtain ⟨hbegins, hname⟩ := Assignment.prefix_of_read? hassigns
  exact ⟨⟨p, hp, hbegins⟩, hname⟩

end Parameters

namespace FilterError

theorem find?_status (e : FilterError) :
    Mapping.find? "status" e.entries = some (.text (toString e.status)) := rfl

/-- The document of an error has a source exactly if the error names a parameter. -/
theorem find?_source (e : FilterError) : Mapping.find? "source" e.entries =
    e.parameter?.map fun name => .object [("parameter", .text name)] := by
  unfold entries
  cases e.parameter? with
  | none => rfl
  | some name => rfl

theorem parameter?_of_key {e : FilterError} {key : String} (h : e.key = some key)
    (hkey : key ≠ "") :
    e.parameter? = some ("filter[" ++ key ++ "]") := by
  rw [parameter?, h]
  simp

end FilterError

namespace Response

theorem result_reportingErrors_eq_ok_iff {path : String} {x : Outcome Response}
    {response : Response} : (reportingErrors path x).result = .ok response ↔
      x.result = .ok response ∨
        ∃ r, x.result = .error (.rejected r) ∧ response = r.error.response := by
  unfold reportingErrors
  split
  · next r hr => simp [hr, eq_comm]
  · next hr =>
    refine ⟨.inl, fun h => h.elim id ?_⟩
    rintro ⟨r, hrejected, _⟩
    exact absurd hrejected (hr r)

variable {schema : Schema} {settings : Settings} {registry : FilterRegistry} {db : Database}
  {m : Model} {path head : String} {parameters : Mapping Value} {response : Response}

/-- A resource answers with keys or with the first thing to fail, if that is the rejection of what
came in. -/
theorem cases_of_answer
    (h : (answer schema settings registry db m path parameters).result = .ok response) :
    (∃ keys, response = ofKeys keys) ∨ ∃ r incoming failure, response = r.error.response ∧
      (Parameters.filters settings parameters none).result = .ok incoming ∧
      (registry.failures schema settings (.all m) incoming).head? = some failure ∧
      failure.fault = .rejected r := by
  rw [answer, result_reportingErrors_eq_ok_iff] at h
  simp only [Outcome.result_bind, Outcome.result_ofExcept] at h
  obtain hok | ⟨r, hrejected, rfl⟩ := h
  · obtain ⟨incoming, _, hok⟩ := Except.bind_eq_ok_iff.1 hok
    obtain ⟨narrowed, _, hok⟩ := Except.bind_eq_ok_iff.1 hok
    obtain ⟨keys, _, hok⟩ := Except.bind_eq_ok_iff.1 hok
    exact .inl ⟨keys, (Except.ok.inj hok).symm⟩
  · refine .inr ?_
    -- neither the parameters nor the rows are ever rejected, only what comes in
    obtain hread | ⟨incoming, hincoming, hrejected⟩ := Except.bind_eq_error_iff.1 hrejected
    · obtain ⟨digits, hfault⟩ := Parameters.exists_of_result_filters_eq_error hread
      exact absurd hfault.symm (BracketKey.indexFault_ne digits r)
    obtain hnarrow | ⟨narrowed, _, hrejected⟩ := Except.bind_eq_error_iff.1 hrejected
    · obtain ⟨failure, hfirst, hfault⟩ :=
        (FilterRegistry.endsIn_apply_mapping incoming).exists_of_eq_error hnarrow
      exact ⟨r, incoming, failure, rfl, hincoming, hfirst, hfault⟩
    obtain hkeys | ⟨keys, _, hrejected⟩ := Except.bind_eq_error_iff.1 hrejected
    · cases narrowed.failsWith_keys schema db _ hkeys
    · cases hrejected

/-- What a resource answers is a document of keys or that of an error. The status of an error is
that of the response and stands in the document. The error is about no filter, and then has no
source, or it is about the key of what was turned down first, for which there is a parameter; then
its source is this parameter's name exactly if the settings ask for the head `filter`. -/
theorem answer_source (hhead : settings.queryParam = .text head)
    (h : (answer schema settings registry db m path parameters).result = .ok response) :
    (∃ keys, response = ofKeys keys) ∨
    ∃ r incoming failure, response.status = r.error.status ∧
      response.body =
        (Document.object [("errors", .list [.object r.error.entries])]).render ∧
      Mapping.find? "status" r.error.entries = some (.text (toString response.status)) ∧
      (Parameters.filters settings parameters none).result = .ok incoming ∧
      (registry.failures schema settings (.all m) incoming).head? = some failure ∧
      failure.fault = .rejected r ∧
      (r.key = none ∧ Mapping.find? "source" r.error.entries = none ∨
        ∃ key name, r.key = some key ∧ failure.filter? = registry.get? key ∧
          Mapping.find? "source" r.error.entries =
            some (.object [("parameter", .text name)]) ∧ name = "filter[" ++ key ++ "]" ∧
          (∃ p ∈ parameters, (head ++ "[" ++ key ++ "]").toList <+: p.1.toList) ∧
          (name = head ++ "[" ++ key ++ "]" ↔ head = "filter")) := by
  rcases cases_of_answer h with hkeys | ⟨r, incoming, ⟨filter?, fault⟩, rfl, hincoming, hfirst, rfl⟩
  · exact .inl hkeys
  refine .inr ⟨r, incoming, _, rfl, rfl, r.error.find?_status, hincoming, hfirst, rfl, ?_⟩
  cases hkey : r.key with
  | none =>
      have hnone : r.error.parameter? = none := by
        rw [FilterError.parameter?, Rejection.error, hkey]
      rw [FilterError.find?_source, hnone]
      exact .inl ⟨rfl, rfl⟩
  | some key =>
      obtain ⟨hmem, hfilter⟩ := FilterRegistry.key_of_mem_failures
        (List.mem_of_mem_head? (Option.mem_def.2 hfirst)) hkey
      obtain ⟨hsent, hne⟩ := Parameters.exists_of_mem_keys hhead hincoming hmem
      refine .inr ⟨key, "filter[" ++ key ++ "]", rfl, hfilter, ?_, rfl, hsent, ?_⟩
      · rw [FilterError.find?_source, FilterError.parameter?_of_key hkey hne]
        rfl
      · rw [show "filter[" = "filter" ++ "[" by rfl, String.append_assoc, String.append_assoc,
          String.append_assoc, String.append_assoc, String.append_left_inj, eq_comm]

end Response

namespace Blog

def oneBound (head : String) : Mapping Value :=
  [(head ++ "[id][operator]", .text "between"), (head ++ "[id][value]", .text "1")]

end Blog

namespace Response

open Blog

theorem answer_source_blog : ∃ (response : Response) (r : Rejection),
    (answer schema (.ofProject .null) registry shelf post "/posts/"
      (oneBound "filter")).result =
        .ok response ∧ response.status = 400 ∧ response.status = r.error.status ∧
      Mapping.find? "source" r.error.entries =
        some (.object [("parameter", .text "filter[id]")]) ∧
      ∃ p ∈ oneBound "filter", "filter[id]".toList <+: p.1.toList := by
  have hstatus : (answer schema (.ofProject .null) registry shelf post "/posts/"
      (oneBound "filter")).result.toOption.map (·.status) = some 400 := by decide +kernel
  cases hanswer : (answer schema (.ofProject .null) registry shelf post "/posts/"
      (oneBound "filter")).result with
  | error fault =>
      rw [hanswer] at hstatus
      cases hstatus
  | ok response =>
      rw [hanswer] at hstatus
      have hbad : response.status = 400 := Option.some.inj hstatus
      obtain ⟨keys, rfl⟩ |
          ⟨r, incoming, failure, hsame, _, _, hincoming, hfirst, hfault, hsource⟩ :=
        answer_source rfl hanswer
      · cases hbad
      · have hsent : (Parameters.filters (.ofProject .null) (oneBound "filter") none).result =
            .ok [entry "id" "between" (.text "1")] := by rfl
        obtain rfl := Except.ok.inj (hsent.symm.trans hincoming)
        have hbound : (registry.failures schema (.ofProject .null) (.all post)
            [entry "id" "between" (.text "1")]).head? =
              some ⟨registry.get? "id", .rejected (.boundCount "id" 1)⟩ := by rfl
        obtain rfl := Option.some.inj (hbound.symm.trans hfirst)
        obtain rfl := Fault.rejected.inj hfault
        obtain ⟨hnone, _⟩ | ⟨key, name, hkey, _, hnamed, rfl, hparameter, hhead⟩ := hsource
        · cases hnone
        · obtain rfl := Option.some.inj hkey
          exact ⟨response, _, rfl, hbad, hsame, hnamed, hparameter⟩

/-- Under another head than `filter` the document names a parameter that was not sent. -/
theorem answer_source_renamed :
    (answer schema (.ofProject (.mapping [("query_param", .text "q")])) registry shelf post
        "/posts/" (oneBound "q")).result =
      .ok (Rejection.boundCount "id" 1).error.response ∧
    Mapping.find? "source" (Rejection.boundCount "id" 1).error.entries =
      some (.object [("parameter", .text "filter[id]")]) ∧
    ¬ ∃ p ∈ oneBound "q", "filter[id]".toList <+: p.1.toList := by
  refine ⟨by rfl, by rfl, ?_⟩
  decide +kernel

end Response

end RowFilter
