import Mathlib.Data.List.Forall2
import Mathlib.Data.List.Perm.Basic
import RowFilter.Filter.Registry
import RowFilter.Proofs.Coherence
import RowFilter.Proofs.Narrowing

/-!
Filters together and alone. A registry narrows a query by one condition for every value that comes
for a key, and a condition depends on the model of the query only; so the rows that filters select
together are those that each selects alone, in whatever order they come and however they are split,
but for the joins that the conditions share. These leave out a row where one condition needs a
single row at the end of a path that the row does not have and another one looks for it. This is the
only obligation: a condition is grounded at a row if it is met there only by rows that have what it
needs.
-/

namespace RowFilter

namespace Condition

variable {db : Database} {row : Row} {c : Condition} {cs : List Condition}

/-- Whether a row that meets the condition has the rows that the condition needs, and hops that are
not optional lead somewhere from it. -/
def IsGrounded (db : Database) (row : Row) (c : Condition) : Prop :=
  ∀ t ∈ c.touch?, t.IsIntact db row ∧
    (t.needsRow = true → c.holds db row = true → followHops db t.path row ≠ [])

end Condition

namespace Query

variable {db : Database} {row : Row} {q : Query} {cs ds : List Condition}

def Selects (q : Query) (db : Database) (row : Row) : Prop :=
  ∃ rows, q.fetch db = .ok rows ∧ row ∈ rows

instance (q : Query) (db : Database) (row : Row) : Decidable (q.Selects db row) :=
  decidable_of_iff ((q.fetch db).toOption.any (fun rows => row ∈ rows) = true) <| by
    unfold Selects
    cases q.fetch db <;> simp [Except.toOption]

def narrowAll (q : Query) (cs : List Condition) : Query :=
  { q with conditions := q.conditions ++ cs }

theorem narrowAll_nil (q : Query) : q.narrowAll [] = q := by
  simp [narrowAll]

theorem narrowAll_narrowAll (q : Query) (cs ds : List Condition) :
    (q.narrowAll cs).narrowAll ds = q.narrowAll (cs ++ ds) := by
  simp [narrowAll]

/-- A row is selected exactly if it is visible, meets every condition, each of which can be put to a
database, and is kept by the joins. -/
theorem selects_iff : q.Selects db row ↔ row ∈ db.visible q.model ∧
    (∀ c ∈ q.conditions, c.verdict = .ok (.asked false) ∧ c.holds db row = true) ∧
      q.joins.keep db row = true := by
  have hrows : q.Selects db row ↔
      (∀ c ∈ q.conditions, c.verdict = .ok (.asked false)) ∧ row ∈ q.rows db := by
    rw [← Condition.verdictOfAll_eq_ok_asked_iff]
    constructor
    · rintro ⟨rows, hfetch, hrow⟩
      rcases fetch_eq_ok_iff.1 hfetch with ⟨_, rfl⟩ | ⟨hasked, rfl⟩
      · cases hrow
      · exact ⟨hasked, hrow⟩
    · rintro ⟨hasked, hrow⟩
      exact ⟨q.rows db, fetch_eq_ok_iff.2 (.inr ⟨hasked, rfl⟩), hrow⟩
  rw [hrows, mem_rows_iff, admits, Condition.allHold_eq_all, Bool.and_eq_true, List.all_eq_true]
  constructor
  · rintro ⟨hverdict, hvisible, hkeep, hholds⟩
    exact ⟨hvisible, fun c hc => ⟨hverdict c hc, hholds c hc⟩, hkeep⟩
  · rintro ⟨hvisible, hall, hkeep⟩
    exact ⟨fun c hc => (hall c hc).1, hvisible, hkeep, fun c hc => (hall c hc).2⟩

theorem joins_narrowAll : (q.narrowAll cs).joins =
    q.joins.addAll (cs.filterMap Condition.touch?) := by
  simp [joins, narrowAll, Joins.ofTouches, Joins.addAll]

theorem keep_narrow_of_keep_narrowAll {c : Condition} (hc : c ∈ cs)
    (h : (q.narrowAll cs).joins.keep db row = true) : (q.narrow c).joins.keep db row = true := by
  rw [joins_narrowAll] at h
  cases htouch : c.touch? with
  | none =>
      rw [joins_narrow_of_none htouch]
      exact Joins.keep_of_keep_addAll (Joins.distinct_ofTouches _) h
  | some t =>
      have hmem : t ∈ cs.filterMap Condition.touch? := List.mem_filterMap.2 ⟨c, hc, htouch⟩
      rw [joins_narrow htouch]
      exact Joins.keep_add_of_keep_addAll (Joins.distinct_ofTouches _)
        (Joins.isOuter_nil_ofTouches _) hmem h

/-- Several conditions together select the rows that each selects alone and that the joins they
share keep. -/
theorem selects_narrowAll_iff : (q.narrowAll cs).Selects db row ↔
    q.Selects db row ∧ (∀ c ∈ cs, (q.narrow c).Selects db row) ∧
      (q.narrowAll cs).joins.keep db row = true := by
  have hall : (∀ c ∈ (q.narrowAll cs).conditions,
        c.verdict = .ok (.asked false) ∧ c.holds db row = true) ↔
      (∀ c ∈ q.conditions, c.verdict = .ok (.asked false) ∧ c.holds db row = true) ∧
        ∀ c ∈ cs, c.verdict = .ok (.asked false) ∧ c.holds db row = true :=
    List.forall_mem_append
  rw [selects_iff, selects_iff, hall]
  constructor
  · rintro ⟨hvisible, ⟨hold, hnew⟩, hkeep⟩
    have hstart : q.joins.keep db row = true :=
      Joins.keep_of_keep_addAll (Joins.distinct_ofTouches _) (joins_narrowAll ▸ hkeep)
    refine ⟨⟨hvisible, hold, hstart⟩, fun c hc => ?_, hkeep⟩
    refine selects_iff.2 ⟨hvisible, ?_, keep_narrow_of_keep_narrowAll hc hkeep⟩
    exact List.forall_mem_append.2 ⟨hold, List.forall_mem_singleton.2 (hnew c hc)⟩
  · rintro ⟨⟨hvisible, hold, _⟩, hnew, hkeep⟩
    refine ⟨hvisible, ⟨hold, fun c hc => ?_⟩, hkeep⟩
    exact (selects_iff.1 (hnew c hc)).2.1 c (List.mem_append_right _ (List.mem_singleton.2 rfl))

theorem selects_narrowAll_iff_of_isGrounded (h : ∀ c ∈ cs, c.IsGrounded db row) :
    (q.narrowAll cs).Selects db row ↔
      q.Selects db row ∧ ∀ c ∈ cs, (q.narrow c).Selects db row := by
  rw [selects_narrowAll_iff]
  refine and_congr_right fun hstart => and_iff_left_of_imp fun halone => ?_
  rw [joins_narrowAll]
  -- what a condition needs is there, since the row meets the condition and it is grounded
  refine Joins.keep_addAll ?_ ?_ (selects_iff.1 hstart).2.2 ?_
  · intro t ht hneeds
    obtain ⟨c, hc, htouch⟩ := List.mem_filterMap.1 ht
    have hholds := (selects_iff.1 (halone c hc)).2.1 c
      (List.mem_append_right _ (List.mem_singleton.2 rfl))
    exact (h c hc t htouch).2 hneeds hholds.2
  · intro t ht
    obtain ⟨c, hc, htouch⟩ := List.mem_filterMap.1 ht
    exact (h c hc t htouch).1
  · intro t ht
    obtain ⟨c, hc, htouch⟩ := List.mem_filterMap.1 ht
    exact joins_narrow htouch ▸ (selects_iff.1 (halone c hc)).2.2

theorem selects_narrowAll_iff_of_perm (hperm : ds.Perm cs)
    (hintact : ∀ c ∈ cs, ∀ t ∈ c.touch?, t.IsIntact db row) :
    (q.narrowAll ds).Selects db row ↔ (q.narrowAll cs).Selects db row := by
  have hkeep : (q.narrowAll ds).joins.keep db row = (q.narrowAll cs).joins.keep db row := by
    rw [joins_narrowAll, joins_narrowAll]
    refine Joins.keep_addAll_of_perm (hperm.filterMap _) fun t ht => ?_
    obtain ⟨c, hc, htouch⟩ := List.mem_filterMap.1 ht
    exact hintact c hc t htouch
  rw [selects_narrowAll_iff, selects_narrowAll_iff, hkeep]
  simp only [hperm.mem_iff]

end Query

theorem exists_of_forall₂_append {α β : Type} {R : α → β → Prop} {xs ys : List α} {zs : List β}
    (h : List.Forall₂ R (xs ++ ys) zs) :
    ∃ us vs, List.Forall₂ R xs us ∧ List.Forall₂ R ys vs ∧ zs = us ++ vs := by
  induction xs generalizing zs with
  | nil => exact ⟨[], zs, .nil, h, rfl⟩
  | cons x xs ih =>
      obtain ⟨z, zs, hz, hzs, rfl⟩ := List.forall₂_cons_left_iff.1 h
      obtain ⟨us, vs, hus, hvs, rfl⟩ := ih hzs
      exact ⟨z :: us, vs, .cons hz hus, hvs, rfl⟩

/-- A filter narrows a query by the condition that it makes of a value. -/
theorem Filter.result_apply_eq_ok_iff {schema : Schema} {settings : Settings} {f : Filter}
    {q narrowed : Query} {v : Value} : (f.apply schema settings q v).result = .ok narrowed ↔
      ∃ r c, (f.condition schema settings q.model v).result = .ok (r, c) ∧
        narrowed = q.narrow c := by
  unfold Filter.apply
  dsimp only
  cases (f.condition schema settings q.model v).result with
  | error e => simp
  | ok made =>
      obtain ⟨r, c⟩ := made
      constructor
      · intro h
        exact ⟨r, c, rfl, (Except.ok.inj h).symm⟩
      · rintro ⟨_, _, hmade, rfl⟩
        cases hmade
        rfl

namespace FilterRegistry

variable {schema : Schema} {settings : Settings} {registry : FilterRegistry} {q result : Query}
  {entries others : Mapping Value} {db : Database} {row : Row}

def requests (entries : Mapping Value) : List (String × Value) :=
  entries.flatMap fun (key, v) => (valuesOf v).map fun item => (key, item)

/-- Whether a condition is the one that a value for a key makes on rows of a model. -/
def Asks (schema : Schema) (settings : Settings) (registry : FilterRegistry) (m : Model)
    (p : String × Value) (c : Condition) : Prop :=
  ∃ f r, registry.get? p.1 = some f ∧ (f.condition schema settings m p.2).result = .ok (r, c)

/-- Whether a row is selected by the filter of a key alone, applied to a query with one value. -/
def SelectsAlone (schema : Schema) (settings : Settings) (registry : FilterRegistry) (q : Query)
    (db : Database) (row : Row) (p : String × Value) : Prop :=
  ∃ f narrowed, registry.get? p.1 = some f ∧
    (f.apply schema settings q p.2).result = .ok narrowed ∧ narrowed.Selects db row

instance (schema : Schema) (settings : Settings) (registry : FilterRegistry) (q : Query)
    (db : Database) (row : Row) (p : String × Value) :
    Decidable (registry.SelectsAlone schema settings q db row p) :=
  decidable_of_iff (((registry.get? p.1).bind fun f =>
      (f.apply schema settings q p.2).result.toOption).any (·.Selects db row) = true) <| by
    unfold SelectsAlone
    cases registry.get? p.1 with
    | none => simp
    | some f => cases h : (f.apply schema settings q p.2).result <;> simp [h, Except.toOption]

/-- Whether the entries of a mapping are those of another, and the values for each key the same, in
any order. -/
def IsReordering (entries others : Mapping Value) : Prop :=
  ∃ middle, entries.Perm middle ∧
    List.Forall₂ (fun a b => a.1 = b.1 ∧ (valuesOf a.2).Perm (valuesOf b.2)) middle others

def NarrowsGrounded (q narrowed : Query) (db : Database) (row : Row) : Prop :=
  ∀ c ∈ narrowed.conditions.drop q.conditions.length, c.IsGrounded db row

/-- Whether hops that are not optional lead somewhere from a row, on the paths of all conditions by
which a query was narrowed since. -/
def NarrowsIntact (q narrowed : Query) (db : Database) (row : Row) : Prop :=
  ∀ c ∈ narrowed.conditions.drop q.conditions.length, ∀ t ∈ c.touch?, t.IsIntact db row

theorem result_applyAll_eq_ok_iff {f : Filter} {vs : List Value} :
    (applyAll schema settings f vs q).result = .ok result ↔
      ∃ cs, List.Forall₂ (fun v c => ∃ r,
        (f.condition schema settings q.model v).result = .ok (r, c)) vs cs ∧
          result = q.narrowAll cs := by
  induction vs generalizing q with
  | nil => simp [applyAll, Query.narrowAll_nil, eq_comm]
  | cons v vs ih =>
      rw [applyAll, Outcome.result_bind_eq_ok_iff]
      constructor
      · rintro ⟨narrowed, hone, hrest⟩
        obtain ⟨r, c, hc, rfl⟩ := Filter.result_apply_eq_ok_iff.1 hone
        obtain ⟨cs, hcs, rfl⟩ := ih.1 hrest
        exact ⟨c :: cs, .cons ⟨r, hc⟩ hcs, Query.narrowAll_narrowAll q [c] cs⟩
      · rintro ⟨_, hall, rfl⟩
        obtain ⟨c, cs, ⟨r, hc⟩, hcs, rfl⟩ := List.forall₂_cons_left_iff.1 hall
        refine ⟨q.narrow c, Filter.result_apply_eq_ok_iff.2 ⟨r, c, hc, rfl⟩, ?_⟩
        exact ih.2 ⟨cs, hcs, (Query.narrowAll_narrowAll q [c] cs).symm⟩

/-- A registry narrows a query by one condition for every value, if it has all keys and every value
makes a condition. -/
theorem result_applyEntries_eq_ok_iff :
    (applyEntries schema settings registry entries q).result = .ok result ↔
      (∀ key ∈ Mapping.keys entries, registry.contains key = true) ∧
        ∃ cs, List.Forall₂ (Asks schema settings registry q.model) (requests entries) cs ∧
          result = q.narrowAll cs := by
  induction entries generalizing q with
  | nil =>
      constructor
      · intro h
        obtain rfl := Except.ok.inj h
        exact ⟨fun key hkey => (List.not_mem_nil hkey).elim, [], .nil, q.narrowAll_nil.symm⟩
      · rintro ⟨_, cs, hcs, rfl⟩
        obtain rfl := List.forall₂_nil_left_iff.1 hcs
        rw [q.narrowAll_nil]
        rfl
  | cons entry rest ih =>
      obtain ⟨key, v⟩ := entry
      have hrequests : requests ((key, v) :: rest) =
          ((valuesOf v).map fun item => (key, item)) ++ requests rest := rfl
      have hkeys : Mapping.keys ((key, v) :: rest) = key :: Mapping.keys rest := rfl
      rw [applyEntries, hrequests, hkeys, List.forall_mem_cons, contains]
      cases hget : registry.get? key with
      | none =>
          refine iff_of_false ?_ fun h => Bool.false_ne_true h.1.1
          intro h
          cases h
      | some f =>
          have hone (m : Model) (vs : List Value) (cs : List Condition) :
              List.Forall₂ (Asks schema settings registry m) (vs.map fun item => (key, item)) cs ↔
                List.Forall₂ (fun v c => ∃ r,
                  (f.condition schema settings m v).result = .ok (r, c)) vs cs := by
            rw [List.forall₂_map_left_iff]
            simp [Asks, hget]
          rw [Outcome.result_bind_eq_ok_iff]
          constructor
          · rintro ⟨narrowed, hfirst, hrest⟩
            obtain ⟨cs, hcs, rfl⟩ := result_applyAll_eq_ok_iff.1 hfirst
            obtain ⟨hall, ds, hds, rfl⟩ := ih.1 hrest
            refine ⟨⟨rfl, hall⟩, cs ++ ds, ?_, Query.narrowAll_narrowAll q cs ds⟩
            exact List.rel_append ((hone _ _ _).2 hcs) hds
          · rintro ⟨⟨_, hall⟩, both, hboth, rfl⟩
            obtain ⟨cs, ds, hcs, hds, rfl⟩ := exists_of_forall₂_append hboth
            refine ⟨q.narrowAll cs, result_applyAll_eq_ok_iff.2 ⟨cs, (hone _ _ _).1 hcs, rfl⟩, ?_⟩
            exact ih.2 ⟨hall, ds, hds, (Query.narrowAll_narrowAll q cs ds).symm⟩

theorem result_apply_mapping :
    (registry.apply schema settings q (.mapping entries)).result =
      (applyEntries schema settings registry entries q).result := by
  cases entries with
  | nil => rfl
  | cons entry rest =>
      rw [apply, if_neg (by simp [Value.truthy])]
      cases h : (applyEntries schema settings registry (entry :: rest) q).result with
      | error e => rw [Outcome.bind_of_error h]
      | ok narrowed => rw [Outcome.bind_of_ok h]; rfl

theorem result_apply_eq_ok_iff :
    (registry.apply schema settings q (.mapping entries)).result = .ok result ↔
      (∀ key ∈ Mapping.keys entries, registry.contains key = true) ∧
        ∃ cs, List.Forall₂ (Asks schema settings registry q.model) (requests entries) cs ∧
          result = q.narrowAll cs := by
  rw [result_apply_mapping, result_applyEntries_eq_ok_iff]

theorem selectsAlone_iff {p : String × Value} {c : Condition}
    (h : registry.Asks schema settings q.model p c) :
    registry.SelectsAlone schema settings q db row p ↔ (q.narrow c).Selects db row := by
  obtain ⟨f, r, hget, hcondition⟩ := h
  constructor
  · rintro ⟨f', narrowed, hget', happly, hselects⟩
    obtain rfl := Option.some.inj (hget.symm.trans hget')
    obtain ⟨r', c', hcondition', rfl⟩ := Filter.result_apply_eq_ok_iff.1 happly
    rw [hcondition] at hcondition'
    cases hcondition'
    exact hselects
  · intro hselects
    exact ⟨f, q.narrow c, hget, Filter.result_apply_eq_ok_iff.2 ⟨r, c, hcondition, rfl⟩, hselects⟩

theorem forall_selectsAlone_iff {ps : List (String × Value)} {cs : List Condition}
    (h : List.Forall₂ (registry.Asks schema settings q.model) ps cs) :
    (∀ p ∈ ps, registry.SelectsAlone schema settings q db row p) ↔
      ∀ c ∈ cs, (q.narrow c).Selects db row := by
  induction h with
  | nil => simp
  | cons hone _ ih => rw [List.forall_mem_cons, List.forall_mem_cons, selectsAlone_iff hone, ih]

theorem requests_perm (h : IsReordering entries others) :
    (requests entries).Perm (requests others) := by
  obtain ⟨middle, hperm, hsame⟩ := h
  refine (hperm.flatMap_right _).trans ?_
  clear hperm
  induction hsame with
  | nil => exact .refl _
  | cons hone _ ih =>
      obtain ⟨hkey, hvalues⟩ := hone
      refine List.Perm.append ?_ ih
      dsimp only
      rw [hkey]
      exact hvalues.map _

theorem keys_perm (h : IsReordering entries others) :
    (Mapping.keys entries).Perm (Mapping.keys others) := by
  obtain ⟨middle, hperm, hsame⟩ := h
  have hkeys : Mapping.keys middle = Mapping.keys others := by
    clear hperm
    induction hsame with
    | nil => rfl
    | cons hone _ ih => exact congrArg₂ List.cons hone.1 ih
  exact hkeys ▸ hperm.map Prod.fst

theorem exists_perm_of_asks {m : Model} {ps others : List (String × Value)} {cs : List Condition}
    (h : List.Forall₂ (registry.Asks schema settings m) ps cs) (hperm : others.Perm ps) :
    ∃ ds, ds.Perm cs ∧ List.Forall₂ (registry.Asks schema settings m) others ds := by
  obtain ⟨ds, hds, hcs⟩ := List.perm_comp_forall₂ hperm h
  exact ⟨ds, hcs, hds⟩

/-- The filters of a registry select together the rows that each selects alone, for every value that
comes for its key, and that their joins keep; and no more is asked of a row at which the conditions
are grounded. In any other order, and in two parts one after the other, they succeed as well and
select the same rows, of those from which hops that are not optional lead somewhere. -/
theorem selects_apply_iff
    (h : (registry.apply schema settings q (.mapping entries)).result = .ok result) :
    (∀ db row, result.Selects db row ↔ q.Selects db row ∧
      (∀ p ∈ requests entries, registry.SelectsAlone schema settings q db row p) ∧
        result.joins.keep db row = true) ∧
    (∀ db row, NarrowsGrounded q result db row → (result.Selects db row ↔ q.Selects db row ∧
      ∀ p ∈ requests entries, registry.SelectsAlone schema settings q db row p)) ∧
    (∀ others, IsReordering entries others →
      ∃ other, (registry.apply schema settings q (.mapping others)).result = .ok other ∧
        ∀ db row, NarrowsIntact q result db row →
          (other.Selects db row ↔ result.Selects db row)) ∧
    (∀ first second : Mapping Value, (first ++ second).Perm entries →
      ∃ middle last, (registry.apply schema settings q (.mapping first)).result = .ok middle ∧
        (registry.apply schema settings middle (.mapping second)).result = .ok last ∧
        ∀ db row, NarrowsIntact q result db row →
          (last.Selects db row ↔ result.Selects db row)) := by
  obtain ⟨hkeys, cs, hcs, rfl⟩ := result_apply_eq_ok_iff.1 h
  have hnew : (q.narrowAll cs).conditions.drop q.conditions.length = cs := List.drop_left
  have hsame (ds : List Condition) (hds : ds.Perm cs) (db : Database) (row : Row)
      (hintact : NarrowsIntact q (q.narrowAll cs) db row) :
      (q.narrowAll ds).Selects db row ↔ (q.narrowAll cs).Selects db row := by
    rw [NarrowsIntact, hnew] at hintact
    exact Query.selects_narrowAll_iff_of_perm hds hintact
  refine ⟨fun db row => ?_, fun db row hgrounded => ?_, fun others hothers => ?_,
    fun first second hparts => ?_⟩
  · rw [forall_selectsAlone_iff hcs, Query.selects_narrowAll_iff]
  · rw [NarrowsGrounded, hnew] at hgrounded
    rw [forall_selectsAlone_iff hcs, Query.selects_narrowAll_iff_of_isGrounded hgrounded]
  · obtain ⟨ds, hds, hothersAsk⟩ := exists_perm_of_asks hcs (requests_perm hothers).symm
    refine ⟨q.narrowAll ds, ?_, hsame ds hds⟩
    refine result_apply_eq_ok_iff.2 ⟨fun key hkey => ?_, ds, hothersAsk, rfl⟩
    exact hkeys key ((keys_perm hothers).mem_iff.2 hkey)
  · have hrequests : (requests first ++ requests second).Perm (requests entries) := by
      rw [requests, requests, ← List.flatMap_append]
      exact hparts.flatMap_right _
    have hmem (key : String) (hkey : key ∈ Mapping.keys first ++ Mapping.keys second) :
        registry.contains key = true := by
      refine hkeys key ((hparts.map Prod.fst).mem_iff.1 ?_)
      rwa [List.map_append]
    obtain ⟨both, hboth, hask⟩ := exists_perm_of_asks hcs hrequests
    obtain ⟨firsts, seconds, hfirst, hsecond, rfl⟩ := exists_of_forall₂_append hask
    refine ⟨q.narrowAll firsts, (q.narrowAll firsts).narrowAll seconds, ?_, ?_, ?_⟩
    · refine result_apply_eq_ok_iff.2 ⟨fun key hkey => ?_, firsts, hfirst, rfl⟩
      exact hmem key (List.mem_append_left _ hkey)
    · refine result_apply_eq_ok_iff.2 ⟨fun key hkey => ?_, seconds, hsecond, rfl⟩
      exact hmem key (List.mem_append_right _ hkey)
    · rw [Query.narrowAll_narrowAll]
      exact hsame _ hboth

end FilterRegistry

namespace Blog

def anonymous : Row := [("id", .int 1), ("author_id", .null)]

def db : Database := ⟨fun key => if key = "blog.Post" then [anonymous] else []⟩

def registry : FilterRegistry :=
  ⟨[{ name := "id", column := "id", owner := none },
    { name := "writer", column := "author__id", owner := none },
    { name := "name", column := "author__name", owner := none }]⟩

def entry (key operator : String) (operand : Value) : String × Value :=
  (key, .mapping [("operator", .text operator), ("value", operand)])

/-- What asks for a comparison that every key meets, without looking, and for a name. -/
def entries : Mapping Value :=
  [entry "writer" ">=" (.int (-9223372036854775809)), entry "name" "<>" (.text "Ada")]

end Blog

namespace FilterRegistry

open Blog in
/-- A comparison of keys that succeeds without looking needs the row that a key leads to, and a
column of that row is looked at by another condition: either selects a row without a key, but not
both together. -/
theorem not_selects_apply_entries :
    ∃ result, (registry.apply schema (.ofProject .null) (.all post) (.mapping entries)).result =
        .ok result ∧
      (Query.all post).Selects db anonymous ∧
      (∀ p ∈ requests entries,
        registry.SelectsAlone schema (.ofProject .null) (.all post) db anonymous p) ∧
      ¬ result.Selects db anonymous := by
  have hbase : (Query.all post).Selects db anonymous := by decide +kernel
  have halone : ∀ p ∈ requests entries,
      registry.SelectsAlone schema (.ofProject .null) (.all post) db anonymous p := by
    decide +kernel
  have htogether : (registry.apply schema (.ofProject .null) (.all post)
      (.mapping entries)).result.toOption.any (fun result => ¬ result.Selects db anonymous) =
        true := by
    decide +kernel
  cases hresult : (registry.apply schema (.ofProject .null) (.all post)
      (.mapping entries)).result with
  | error e => rw [hresult] at htogether; cases htogether
  | ok result =>
      rw [hresult] at htogether
      exact ⟨result, rfl, hbase, halone, of_decide_eq_true htogether⟩

open Blog in
theorem selects_apply_blog :
    ∃ result other middle last,
      (registry.apply schema (.ofProject .null) (.all post) (.mapping
        [entry "id" "=" (.int 1), entry "name" "<>" (.text "Ada")])).result = .ok result ∧
      (registry.apply schema (.ofProject .null) (.all post) (.mapping
        [entry "name" "<>" (.text "Ada"), entry "id" "=" (.int 1)])).result = .ok other ∧
      (registry.apply schema (.ofProject .null) (.all post) (.mapping
        [entry "id" "=" (.int 1)])).result = .ok middle ∧
      (registry.apply schema (.ofProject .null) middle (.mapping
        [entry "name" "<>" (.text "Ada")])).result = .ok last ∧
      result.Selects db anonymous ∧ other.Selects db anonymous ∧ last.Selects db anonymous := by
  have hchecked : (registry.apply schema (.ofProject .null) (.all post) (.mapping
      [entry "id" "=" (.int 1), entry "name" "<>" (.text "Ada")])).result.toOption.any
      (fun result => result.Selects db anonymous ∧ ∀ c ∈ result.conditions, ∀ t ∈ c.touch?,
        ∀ hop ∈ t.path, hop.isOptional = true) = true := by
    decide +kernel
  cases hresult : (registry.apply schema (.ofProject .null) (.all post) (.mapping
      [entry "id" "=" (.int 1), entry "name" "<>" (.text "Ada")])).result with
  | error e => rw [hresult] at hchecked; cases hchecked
  | ok result =>
      rw [hresult] at hchecked
      obtain ⟨hselects, htouches⟩ := of_decide_eq_true hchecked
      have hintact : NarrowsIntact (.all post) result db anonymous := by
        intro c hc t ht path hop hstarts hnot
        have hmem : hop ∈ t.path := hstarts.subset (by simp)
        rw [htouches c (List.mem_of_mem_drop hc) t ht hop hmem] at hnot
        cases hnot
      obtain ⟨-, -, hreordered, hsplit⟩ := selects_apply_iff hresult
      obtain ⟨other, hother, hsame⟩ := hreordered _
        ⟨[entry "name" "<>" (.text "Ada"), entry "id" "=" (.int 1)], .swap _ _ _,
          .cons ⟨rfl, .refl _⟩ (.cons ⟨rfl, .refl _⟩ .nil)⟩
      obtain ⟨middle, last, hmiddle, hlast, hsame'⟩ := hsplit [entry "id" "=" (.int 1)]
        [entry "name" "<>" (.text "Ada")] (.refl _)
      exact ⟨result, other, middle, last, rfl, hother, hmiddle, hlast, hselects,
        (hsame db anonymous hintact).2 hselects, (hsame' db anonymous hintact).2 hselects⟩

end FilterRegistry

end RowFilter
