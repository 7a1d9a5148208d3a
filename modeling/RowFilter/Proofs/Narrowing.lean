import RowFilter.Proofs.Joins
import RowFilter.Query.Basic

/-!
Queries narrowed by one more condition. A condition that looks only at the rows of its own model has
no say in the joins of a query; if it is met at most once by every row, as one on linked rows is,
the narrowed query has the rows of the query that meet it, each as often as before and in the same
order. Inside of a link the same holds of the linked rows, since a row that the link leads to has
whatever rows the link is found through.
-/

namespace RowFilter

theorem Except.bind_eq_ok_iff {α β : Type} {x : Except Fault α} {f : α → Except Fault β} {b : β} :
    x >>= f = .ok b ↔ ∃ a, x = .ok a ∧ f a = .ok b := by
  cases x with
  | error e => simp [bind, Except.bind]
  | ok a => simp [bind, Except.bind]

theorem Except.bind_eq_error_iff {α β : Type} {x : Except Fault α} {f : α → Except Fault β}
    {fault : Fault} :
    x >>= f = .error fault ↔ x = .error fault ∨ ∃ a, x = .ok a ∧ f a = .error fault := by
  cases x with
  | error e => simp [bind, Except.bind]
  | ok a => simp [bind, Except.bind]

theorem eq_ok_of_toOption {α : Type} {x : Except Fault α} {a : α} (h : x.toOption = some a) :
    x = .ok a := by
  cases x with
  | error e => cases h
  | ok b => exact congrArg Except.ok (Option.some.inj h)

namespace Joins

variable {js : Joins} {t : Touch} {p : List Hop} {db : Database} {row : Row}

theorem isOuter_add_of_has (hneeds : t.needsRow = false) (h : js.Has p) :
    (js.add t).isOuter p = js.isOuter p := by
  have hboth : (js.add t).Has p ∧ (js.add t).isOuter p = js.isOuter p := by
    refine add_induction (motive := fun grown => grown.Has p ∧ grown.isOuter p = js.isOuter p)
      ⟨h, rfl⟩ ?_
    rintro grown used before hop - - ⟨hhas, houter⟩
    refine ⟨has_extend.2 (.inl hhas), ?_⟩
    by_cases hp : p = before ++ [hop]
    · subst hp
      rw [isOuter_extend_of_has hhas, hneeds, Bool.not_false, Bool.and_true, houter]
    · rw [isOuter_extend_of_ne hp, houter]
  exact hboth.2

theorem not_uses_of_used_eq_zero (hused : t.used = 0) : ¬ t.Uses p := by
  rintro ⟨hne, -, hlength⟩
  rw [hused, Nat.le_zero, List.length_eq_zero_iff] at hlength
  exact hne hlength

theorem keep_add_of_used_eq_zero (hdistinct : js.Distinct) (hused : t.used = 0)
    (hneeds : t.needsRow = false) : (js.add t).keep db row = js.keep db row := by
  rw [Bool.eq_iff_iff, keep_iff hdistinct.add, keep_iff hdistinct]
  have hsame (p : List Hop) : (js.add t).IsUsed p ↔ js.IsUsed p := by
    rw [isUsed_add, or_iff_left (not_uses_of_used_eq_zero hused)]
  constructor
  · intro hall p hp hinner
    exact hall p ((hsame p).2 hp) hinner.add
  · intro hall p hp hinner
    obtain ⟨j, hj, hpath, hlooked⟩ := (hsame p).1 hp
    have hhas : js.Has p := ⟨j, hj, hpath⟩
    exact hall p ⟨j, hj, hpath, hlooked⟩ ⟨hhas, isOuter_add_of_has hneeds hhas ▸ hinner.2⟩

end Joins

namespace Condition

variable {db : Database} {row other : Row} {c : Condition} {cs inner : List Condition}
  {link : Link}

def IsOwn (c : Condition) : Prop :=
  ∀ t ∈ c.touch?, t.used = 0

/-- A row that a link leads to is left out by no joins, if the inner conditions look at no other
rows. -/
theorem keep_linkJoins (hinner : ∀ c ∈ inner, c.IsOwn) (h : link.leads db row other = true) :
    (linkJoins link inner).keep db other = true := by
  have hfollowed : followHops db link.join.hops other ≠ [] := by
    intro hnil
    rw [Link.leads, ColumnRef.cells, if_pos rfl, hnil] at h
    cases h
  rw [linkJoins, Joins.keep_iff (Joins.distinct_ofTouches _)]
  intro p hused _ hnil
  rcases Joins.isUsed_addAll.1 hused with ⟨j, hj, _⟩ | ⟨t, ht, huses⟩
  · cases hj
  · rcases List.mem_cons.1 ht with rfl | ht
    · -- the path is one of the first hops of the join
      obtain ⟨_, hstarts, hlength⟩ := huses
      have hpath : p <+: link.join.hops ++ link.join.beyond :=
        hstarts.trans (List.takeWhile_prefix _)
      obtain ⟨more, hmore⟩ := List.prefix_of_prefix_length_le hpath (List.prefix_append _ _) hlength
      rw [← hmore, followHops_append, hnil] at hfollowed
      exact hfollowed rfl
    · obtain ⟨c, hc, htouch⟩ := List.mem_filterMap.1 ht
      exact Joins.not_uses_of_used_eq_zero (hinner c hc t htouch) huses

theorem holds_linked_iff_of_isOwn (hinner : ∀ c ∈ inner, c.IsOwn) :
    (linked link inner).holds db row = true ↔ ∃ other ∈ db.visible link.related,
      link.leads db row other = true ∧ ∀ c ∈ inner, c.holds db other = true := by
  rw [holds_linked_iff]
  constructor
  · rintro ⟨other, hvisible, hleads, _, hall⟩
    exact ⟨other, hvisible, hleads, hall⟩
  · rintro ⟨other, hvisible, hleads, hall⟩
    exact ⟨other, hvisible, hleads, keep_linkJoins hinner hleads, hall⟩

theorem verdictOfAll_eq_ok_asked_iff :
    verdictOfAll cs = .ok (.asked false) ↔ ∀ c ∈ cs, c.verdict = .ok (.asked false) := by
  induction cs with
  | nil => simp [verdictOfAll]
  | cons c cs ih =>
      rw [List.forall_mem_cons, ← ih, verdictOfAll]
      cases hc : c.verdict with
      | error e => simp [bind, Except.bind]
      | ok found =>
          cases found with
          | never => simp [bind, Except.bind, pure, Except.pure]
          | asked overflows =>
              cases hcs : verdictOfAll cs with
              | error e => simp [bind, Except.bind]
              | ok rest =>
                  cases rest <;> simp [bind, Except.bind, pure, Except.pure, Verdict.and]

/-- What is known to be met by no row without a last condition that may be met was known before. -/
theorem verdictOfAll_eq_never_of_append (hc : c.verdict ≠ .ok .never)
    (h : verdictOfAll (cs ++ [c]) = .ok .never) : verdictOfAll cs = .ok .never := by
  induction cs with
  | nil =>
      rw [List.nil_append, verdictOfAll] at h
      cases hverdict : c.verdict with
      | error e => rw [hverdict] at h; cases h
      | ok found =>
          cases found with
          | never => exact absurd hverdict hc
          | asked overflows => rw [hverdict] at h; cases h
  | cons first cs ih =>
      rw [List.cons_append, verdictOfAll] at h
      rw [verdictOfAll]
      cases hfirst : first.verdict with
      | error e => rw [hfirst] at h; cases h
      | ok found =>
          cases found with
          | never => rfl
          | asked overflows =>
              cases hrest : verdictOfAll (cs ++ [c]) with
              | error e => simp [hfirst, hrest, bind, Except.bind] at h
              | ok rest =>
                  cases rest with
                  | asked others =>
                      simp [hfirst, hrest, bind, Except.bind, pure, Except.pure, Verdict.and] at h
                  | never => rw [ih hrest]; rfl

theorem verdict_linked_ne_never : (linked link inner).verdict ≠ .ok .never := by
  rw [verdict]
  cases verdictOfAll inner with
  | error e => intro h; cases h
  | ok found => cases found <;> (intro h; cases h)

end Condition

namespace Query

variable {q : Query} {c : Condition} {db : Database} {row : Row}

theorem fetch_eq_ok_iff {rows : List Row} : q.fetch db = .ok rows ↔
    Condition.verdictOfAll q.conditions = .ok .never ∧ rows = [] ∨
      Condition.verdictOfAll q.conditions = .ok (.asked false) ∧ rows = q.rows db := by
  rw [fetch]
  cases Condition.verdictOfAll q.conditions with
  | error e => simp [bind, Except.bind]
  | ok verdict =>
      cases verdict with
      | never => simp [bind, Except.bind, pure, Except.pure, eq_comm]
      | asked overflows =>
          cases overflows <;>
            simp [bind, Except.bind, pure, Except.pure, throw, throwThe, MonadExceptOf.throw,
              eq_comm]

theorem joins_narrow {t : Touch} (ht : c.touch? = some t) :
    (q.narrow c).joins = q.joins.add t := by
  simp [joins, narrow, ht, Joins.ofTouches]

theorem joins_narrow_of_none (h : c.touch? = none) : (q.narrow c).joins = q.joins := by
  simp [joins, narrow, h]

/-- A condition that no rows are looked for through joins for, and that no row meets twice, leaves
of the rows those that meet it. -/
theorem rows_narrow (hunused : ∀ t ∈ c.touch?, t.used = 0 ∧ t.needsRow = false)
    (honce : ∀ row, c.holds db row = true → c.copies db row = 1) :
    (q.narrow c).rows db = (q.rows db).filter (c.holds db) := by
  have hjoins (row : Row) : (q.narrow c).joins.keep db row = q.joins.keep db row := by
    cases htouch : c.touch? with
    | none => rw [joins_narrow_of_none htouch]
    | some t =>
        obtain ⟨hused, hneeds⟩ := hunused t htouch
        rw [joins_narrow htouch]
        exact Joins.keep_add_of_used_eq_zero (Joins.distinct_ofTouches _) hused hneeds
  have hadmits (row : Row) :
      (q.narrow c).admits db row = (q.admits db row && c.holds db row) := by
    rw [admits, admits, hjoins]
    simp [narrow, Condition.allHold_append, Condition.allHold, Bool.and_assoc]
  have hcopies (row : Row) (h : c.holds db row = true) :
      (q.narrow c).copies db row = q.copies db row := by
    simp [copies, narrow, honce row h]
  have hmodel : (q.narrow c).model = q.model := rfl
  rw [rows, rows, hmodel]
  -- visible rows are repeated one by one, so the two lists are compared row by row
  induction db.visible q.model with
  | nil => rfl
  | cons row rest ih =>
      cases hold : q.admits db row with
      | false => simp [hadmits, hold, ih]
      | true =>
          cases hholds : c.holds db row with
          | false => simp [hadmits, hold, hholds, ih]
          | true => simp [hadmits, hold, hholds, hcopies row hholds, ih]

/-- Rows that are fetched after narrowing a query to linked rows are rows that were fetched before:
those that are linked, each as often as before. -/
theorem fetch_narrow_linked {link : Link} {inner : List Condition} {remaining : List Row}
    (hown : (Condition.linked link inner).IsOwn)
    (h : (q.narrow (.linked link inner)).fetch db = .ok remaining) :
    ∃ fetched, q.fetch db = .ok fetched ∧
      remaining = fetched.filter ((Condition.linked link inner).holds db) := by
  have hunused : ∀ t ∈ (Condition.linked link inner).touch?, t.used = 0 ∧ t.needsRow = false := by
    intro t ht
    obtain rfl := Option.some.inj ht
    exact ⟨hown _ ht, rfl⟩
  have hrows : (q.narrow (.linked link inner)).rows db =
      (q.rows db).filter ((Condition.linked link inner).holds db) :=
    rows_narrow hunused fun row hholds => by simp [Condition.copies, hholds]
  have hconditions : (q.narrow (.linked link inner)).conditions =
      q.conditions ++ [.linked link inner] := rfl
  rcases fetch_eq_ok_iff.1 h with ⟨hnever, rfl⟩ | ⟨hasked, rfl⟩
  · rw [hconditions] at hnever
    -- a link is never known to be met by no row, so an older condition must be
    have hbefore := Condition.verdictOfAll_eq_never_of_append
      Condition.verdict_linked_ne_never hnever
    exact ⟨[], fetch_eq_ok_iff.2 (.inl ⟨hbefore, rfl⟩), rfl⟩
  · rw [hconditions, Condition.verdictOfAll_eq_ok_asked_iff] at hasked
    have hbefore := Condition.verdictOfAll_eq_ok_asked_iff.2 fun c hc =>
      hasked c (List.mem_append_left _ hc)
    exact ⟨q.rows db, fetch_eq_ok_iff.2 (.inr ⟨hbefore, rfl⟩), hrows⟩

end Query

end RowFilter
