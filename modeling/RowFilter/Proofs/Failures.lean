import RowFilter.Proofs.Conjunction

/-!
Failures of a registry. Whether a filter takes a value depends on the model of a query and not on
the conditions that the query has, so a value that fails among others fails in the same way alone. A
registry therefore ends in the first of the failures that values have alone, in order of the keys
and of the values for each key, and it warns of that failure only, if a filter rejected the value.
What values do to a query and what they log are followed together, by one induction over the values
for a key and one over the keys.
-/

namespace RowFilter

namespace Outcome

variable {α β : Type} {x : Outcome α} {f : α → Outcome β}

theorem warnings_bind_of_ok {a : α} (h : x.result = .ok a) (f : α → Outcome β) :
    (x >>= f).warnings = x.warnings ++ (f a).warnings := by
  rw [bind_of_ok h, warnings, List.filter_append]
  rfl

theorem warnings_bind_of_error {e : Fault} (h : x.result = .error e) (f : α → Outcome β) :
    (x >>= f).warnings = x.warnings := by
  rw [bind_of_error h]
  rfl

theorem warnings_bind_eq_nil (hx : x.warnings = []) (hf : ∀ a, (f a).warnings = []) :
    (x >>= f).warnings = [] := by
  cases h : x.result with
  | ok a => rw [warnings_bind_of_ok h, hx, hf a, List.append_nil]
  | error e => rw [warnings_bind_of_error h, hx]

end Outcome

theorem Schema.warnings_closeLink (schema : Schema) (m : Model) (r : Relation) (related : Model)
    (join : ColumnRef) (inner : List Condition) :
    (schema.closeLink m r related join inner).warnings = [] :=
  Outcome.warnings_bind_eq_nil rfl fun _ => Outcome.warnings_bind_eq_nil rfl fun _ => rfl

namespace Filter

variable {schema : Schema} {settings : Settings} {f : Filter} {m : Model} {q : Query} {v : Value}

theorem warnings_conditionOf (schema : Schema) (f : Filter) (m : Model) (r : Request) :
    (f.conditionOf schema m r).warnings = [] := by
  rw [conditionOf]
  split
  · exact Outcome.warnings_bind_eq_nil rfl fun _ => Outcome.warnings_bind_eq_nil rfl fun _ =>
      Outcome.warnings_bind_eq_nil rfl fun _ => schema.warnings_closeLink ..
  · rfl

theorem warnings_condition (schema : Schema) (settings : Settings) (f : Filter) (m : Model)
    (v : Value) : (f.condition schema settings m v).warnings = [] := by
  rw [condition]
  split
  · rfl
  · exact Outcome.warnings_bind_eq_nil rfl fun r =>
      Outcome.warnings_bind_eq_nil (f.warnings_conditionOf schema m r) fun _ =>
        Outcome.warnings_bind_eq_nil rfl fun _ => rfl

theorem result_apply_eq_error_iff {e : Fault} : (f.apply schema settings q v).result = .error e ↔
    (f.condition schema settings q.model v).result = .error e := by
  unfold apply
  dsimp only
  cases (f.condition schema settings q.model v).result with
  | ok made => simp
  | error fault => simp

/-- A filter warns of nothing but its own rejections, and of each of them once. -/
theorem warnings_apply (schema : Schema) (settings : Settings) (f : Filter) (q : Query)
    (v : Value) : (f.apply schema settings q v).warnings =
      match (f.apply schema settings q v).result with
      | .error (.rejected r) => if settings.logsRejections then [f.rejectedRecord r.error] else []
      | _ => [] := by
  have hquiet := f.warnings_condition schema settings q.model v
  rw [Outcome.warnings] at hquiet
  unfold apply
  dsimp only
  cases (f.condition schema settings q.model v).result with
  | ok made =>
      rw [Outcome.warnings, List.filter_append, hquiet]
      rfl
  | error fault =>
      rw [Outcome.warnings, List.filter_append, hquiet, List.nil_append]
      cases fault with
      | rejected r =>
          dsimp only
          split <;> rfl
      | _ => rfl

end Filter

/-- A fault that ends a run, and the filter that it comes from if it comes from one. -/
structure Failure where
  filter? : Option Filter
  fault : Fault

def Failure.warnings (settings : Settings) (x : Failure) : List Record :=
  match x.filter?, x.fault with
  | some f, .rejected r => if settings.logsRejections then [f.rejectedRecord r.error] else []
  | _, _ => []

namespace FilterRegistry

def failure? (schema : Schema) (settings : Settings) (q : Query) (f : Filter) (v : Value) :
    Option Failure :=
  match (f.apply schema settings q v).result with
  | .ok _ => none
  | .error fault => some ⟨some f, fault⟩

/-- How the values for a key fail, each of them alone. A key that no filter has is a failure of its
own, even if there are no values for it. -/
def failuresAt (schema : Schema) (settings : Settings) (registry : FilterRegistry) (q : Query)
    (key : String) (v : Value) : List Failure :=
  match registry.get? key with
  | none => [⟨none, .rejected (.unknownKey key)⟩]
  | some f => (valuesOf v).filterMap (failure? schema settings q f)

def failures (schema : Schema) (settings : Settings) (registry : FilterRegistry) (q : Query)
    (entries : Mapping Value) : List Failure :=
  entries.flatMap fun (key, v) => failuresAt schema settings registry q key v

/-- Whether a filter rejects a value, for a cause, before anything else that comes in fails. -/
def RejectsFirst (schema : Schema) (settings : Settings) (registry : FilterRegistry) (q : Query)
    (incoming : Value) (f : Filter) (r : Rejection) : Prop :=
  ∃ entries, incoming = .mapping entries ∧
    (failures schema settings registry q entries).head? = some ⟨some f, .rejected r⟩

variable {schema : Schema} {settings : Settings} {registry : FilterRegistry} {f : Filter}
  {q narrowed : Query} {x : Outcome Query} {next : Query → Outcome Query}
  {first? later? : Option Failure}

theorem failure?_eq_of_model (h : narrowed.model = q.model) :
    failure? schema settings narrowed f = failure? schema settings q f := by
  funext v
  unfold failure? Filter.apply
  dsimp only
  rw [h]
  cases (f.condition schema settings q.model v).result <;> rfl

theorem failures_eq_of_model (h : narrowed.model = q.model) (entries : Mapping Value) :
    failures schema settings registry narrowed entries =
      failures schema settings registry q entries := by
  have hone (key : String) (v : Value) : failuresAt schema settings registry narrowed key v =
      failuresAt schema settings registry q key v := by
    simp only [failuresAt, failure?_eq_of_model h]
  simp only [failures, hone]

/-- Whether a run on a query ends in a failure and warns of just that, or in a query of the same
model without any warning. -/
def EndsIn (settings : Settings) (q : Query) (x : Outcome Query) : Option Failure → Prop
  | none => (∃ narrowed, x.result = .ok narrowed ∧ narrowed.model = q.model) ∧ x.warnings = []
  | some failure => x.result = .error failure.fault ∧ x.warnings = failure.warnings settings

theorem endsIn_pure (settings : Settings) (q : Query) : EndsIn settings q (pure q) none :=
  ⟨⟨q, rfl, rfl⟩, rfl⟩

theorem EndsIn.exists_of_eq_error {fault : Fault} (h : EndsIn settings q x first?)
    (hresult : x.result = .error fault) :
    ∃ failure, first? = some failure ∧ failure.fault = fault := by
  cases first? with
  | some failure => exact ⟨failure, rfl, Except.error.inj (h.1.symm.trans hresult)⟩
  | none =>
      obtain ⟨⟨narrowed, hok, _⟩, _⟩ := h
      rw [hresult] at hok
      cases hok

/-- Of two runs one after another the first failure counts. -/
theorem EndsIn.bind (hx : EndsIn settings q x first?)
    (hnext : ∀ narrowed, narrowed.model = q.model →
      EndsIn settings narrowed (next narrowed) later?) :
    EndsIn settings q (x >>= next) (first?.or later?) := by
  cases first? with
  | some failure =>
      obtain ⟨hresult, hwarnings⟩ := hx
      refine ⟨?_, (Outcome.warnings_bind_of_error hresult next).trans hwarnings⟩
      rw [Outcome.bind_of_error hresult]
  | none =>
      obtain ⟨⟨narrowed, hresult, hmodel⟩, hwarnings⟩ := hx
      have hbind : (x >>= next).result = (next narrowed).result := by
        rw [Outcome.bind_of_ok hresult]
      have hlog : (x >>= next).warnings = (next narrowed).warnings := by
        rw [Outcome.warnings_bind_of_ok hresult, hwarnings, List.nil_append]
      have hlater := hnext narrowed hmodel
      rw [Option.none_or]
      cases later? with
      | some failure =>
          obtain ⟨hresult, hwarnings⟩ := hlater
          exact ⟨hbind.trans hresult, hlog.trans hwarnings⟩
      | none =>
          obtain ⟨⟨last, hresult, hlast⟩, hwarnings⟩ := hlater
          exact ⟨⟨last, hbind.trans hresult, hlast.trans hmodel⟩, hlog.trans hwarnings⟩

theorem endsIn_apply (schema : Schema) (settings : Settings) (f : Filter) (q : Query) (v : Value) :
    EndsIn settings q (f.apply schema settings q v) (failure? schema settings q f v) := by
  have hwarnings := f.warnings_apply schema settings q v
  unfold failure?
  cases hresult : (f.apply schema settings q v).result with
  | error fault =>
      rw [hresult] at hwarnings
      refine ⟨hresult, hwarnings.trans ?_⟩
      cases fault <;> rfl
  | ok narrowed =>
      rw [hresult] at hwarnings
      obtain ⟨_, _, _, rfl⟩ := Filter.result_apply_eq_ok_iff.1 hresult
      exact ⟨⟨_, hresult, rfl⟩, hwarnings⟩

theorem endsIn_applyAll (f : Filter) (vs : List Value) (q : Query) :
    EndsIn settings q (applyAll schema settings f vs q)
      (vs.filterMap (failure? schema settings q f)).head? := by
  induction vs generalizing q with
  | nil => exact endsIn_pure settings q
  | cons v vs ih =>
      have hhead : ((v :: vs).filterMap (failure? schema settings q f)).head? =
          (failure? schema settings q f v).or
            (vs.filterMap (failure? schema settings q f)).head? := by
        cases hv : failure? schema settings q f v with
        | none => rw [List.filterMap_cons_none hv, Option.none_or]
        | some failure => rw [List.filterMap_cons_some hv, List.head?_cons, Option.some_or]
      rw [applyAll, hhead]
      refine (endsIn_apply schema settings f q v).bind fun narrowed hmodel => ?_
      -- how the later values fail is said of the query before it was narrowed
      rw [← failure?_eq_of_model hmodel]
      exact ih narrowed

/-- Incoming values end in the first failure that one of them has alone. -/
theorem endsIn_applyEntries (entries : Mapping Value) (q : Query) :
    EndsIn settings q (applyEntries schema settings registry entries q)
      (failures schema settings registry q entries).head? := by
  induction entries generalizing q with
  | nil => exact endsIn_pure settings q
  | cons entry rest ih =>
      obtain ⟨key, v⟩ := entry
      have hcons : failures schema settings registry q ((key, v) :: rest) =
          failuresAt schema settings registry q key v ++
            failures schema settings registry q rest := rfl
      rw [applyEntries, hcons, List.head?_append, failuresAt]
      cases hget : registry.get? key with
      | none => exact ⟨rfl, rfl⟩
      | some f =>
          refine (endsIn_applyAll f (valuesOf v) q).bind fun narrowed hmodel => ?_
          rw [← failures_eq_of_model hmodel]
          exact ih narrowed

/-- What is logged after the last value is no warning, and it fails nothing. -/
theorem endsIn_apply_mapping (entries : Mapping Value) :
    EndsIn settings q (registry.apply schema settings q (.mapping entries))
      (failures schema settings registry q entries).head? := by
  cases entries with
  | nil => exact endsIn_pure settings q
  | cons entry rest =>
      have hdone (narrowed : Query) : EndsIn settings narrowed (do
          .debug ("Applied filters: " ++ ", ".intercalate (Mapping.keys (entry :: rest)))
          return narrowed) none := ⟨⟨narrowed, rfl, rfl⟩, rfl⟩
      rw [apply, if_neg (by simp [Value.truthy])]
      have hentries : EndsIn settings q (applyEntries schema settings registry (entry :: rest) q)
          (failures schema settings registry q (entry :: rest)).head? := endsIn_applyEntries _ q
      have hall := hentries.bind fun narrowed _ => hdone narrowed
      rwa [Option.or_none] at hall

/-- A registry fails exactly if some key has no filter or some value fails alone, and then in the
way of the first that does. It warns once, under the name of the filter and with the status of the
error, if that is the rejection of a value by a filter and rejections are logged, and of nothing
else, whatever comes in. -/
theorem apply_fails_first (schema : Schema) (settings : Settings) (registry : FilterRegistry)
    (q : Query) :
    (∀ entries fault, (registry.apply schema settings q (.mapping entries)).result = .error fault ↔
      (failures schema settings registry q entries).head?.map (·.fault) = some fault) ∧
    (∀ incoming f r, RejectsFirst schema settings registry q incoming f r →
      settings.logsRejections = true →
        ∃ record, (registry.apply schema settings q incoming).warnings = [record] ∧
          record.key = some f.name ∧ record.status = some r.error.status ∧
          record.message = s!"Rejected filter {f.name}: {r.message}") ∧
    ∀ incoming, (¬ ∃ f r, RejectsFirst schema settings registry q incoming f r ∧
        settings.logsRejections = true) →
      (registry.apply schema settings q incoming).warnings = [] := by
  have hends (entries : Mapping Value) :
      EndsIn settings q (registry.apply schema settings q (.mapping entries))
        (failures schema settings registry q entries).head? := endsIn_apply_mapping entries
  refine ⟨fun entries fault => ?_, ?_, fun incoming hnone => ?_⟩
  · have hall := hends entries
    cases hfirst : (failures schema settings registry q entries).head? with
    | none =>
        rw [hfirst] at hall
        obtain ⟨⟨narrowed, hresult, _⟩, _⟩ := hall
        simp [hresult]
    | some failure =>
        rw [hfirst] at hall
        simp [hall.1]
  · rintro _ f r ⟨entries, rfl, hfirst⟩ hlogs
    have hwarnings := (hfirst ▸ hends entries).2
    exact ⟨f.rejectedRecord r.error, hwarnings.trans (if_pos hlogs), rfl, rfl, rfl⟩
  · cases incoming with
    | mapping entries =>
        have hall := hends entries
        cases hfirst : (failures schema settings registry q entries).head? with
        | none => exact (hfirst ▸ hall).2
        | some failure =>
            rw [hfirst] at hall
            refine hall.2.trans ?_
            obtain ⟨_ | f, fault⟩ := failure
            · rfl
            · cases fault with
              | rejected r => exact if_neg fun hlogs => hnone ⟨f, r, ⟨entries, rfl, hfirst⟩, hlogs⟩
              | _ => rfl
    | _ =>
        -- what is no mapping asks for nothing or is turned down before any filter
        unfold apply
        dsimp only
        split <;> rfl

end FilterRegistry

namespace Blog

/-- A value that is fine, then a range with one bound, then a key that no filter has. -/
def refused : Mapping Value :=
  [entry "id" "=" (.int 1), entry "writer" "between" (.text "1"), ("color", .list [])]

end Blog

open Blog in
/-- Of a range with one bound and an unknown key the range, which comes first, is reported. -/
theorem FilterRegistry.apply_fails_first_blog :
    (registry.apply schema (.ofProject .null) (.all post) (.mapping refused)).result =
        .error (.rejected (.boundCount "writer" 1)) ∧
      ∃ record, (registry.apply schema (.ofProject .null) (.all post)
          (.mapping refused)).warnings = [record] ∧
        record.key = some "writer" ∧ record.status = some 400 := by
  have hfirst : (failures schema (.ofProject .null) registry (.all post) refused).head? =
      some ⟨some { name := "writer", column := "author__id", owner := none },
        .rejected (.boundCount "writer" 1)⟩ := by
    rfl
  obtain ⟨hfails, hwarns, _⟩ := apply_fails_first schema (.ofProject .null) registry (.all post)
  obtain ⟨record, hrecord, hkey, hstatus, _⟩ :=
    hwarns (.mapping refused) _ _ ⟨refused, rfl, hfirst⟩ (by decide +kernel)
  refine ⟨(hfails refused _).2 ?_, record, hrecord, hkey, hstatus⟩
  rw [hfirst]
  rfl

end RowFilter
