import Mathlib.Data.List.Infix
import Mathlib.Data.List.Nodup
import RowFilter.Query.Join

/-!
How the joins of a query grow. A join that is inner stays so, whatever is asked for later; a new one
is inner only if it is needed, or if its last hop is not optional and the join before it is not
outer. So the joins that several conditions share leave out every row that one of them would leave
out on its own, and the only further rows they leave out are those where one condition needs a row
that another one looks for.
-/

namespace RowFilter

/-- Whether a path is one of those whose end is looked at. -/
def Touch.Uses (t : Touch) (path : List Hop) : Prop :=
  path ≠ [] ∧ path <+: t.path ∧ path.length ≤ t.used

/-- Whether a path is one of those whose rows are needed. -/
def Touch.Needs (t : Touch) (path : List Hop) : Prop :=
  t.needsRow = true ∧ path <+: t.path

/-- Whether hops of a path that are not optional lead from a row to others. -/
def Touch.IsIntact (db : Database) (row : Row) (t : Touch) : Prop :=
  ∀ path hop, path ++ [hop] <+: t.path → hop.isOptional = false → followHops db path row ≠ [] →
    followHops db (path ++ [hop]) row ≠ []

theorem followHops_ne_nil_of_prefix {db : Database} {row : Row} {before path : List Hop}
    (h : followHops db path row ≠ []) (hbefore : before <+: path) :
    followHops db before row ≠ [] := by
  obtain ⟨more, rfl⟩ := hbefore
  intro hnil
  rw [followHops_append, hnil] at h
  exact h rfl

namespace Joins

variable {js : Joins} {path p : List Hop} {hop : Hop} {needsRow used : Bool} {t : Touch}

def visit (needsRow used : Bool) (target : List Hop) (j : Join) : Join :=
  if j.path = target then { j with isOuter := j.isOuter && !needsRow, isUsed := j.isUsed || used }
  else j

def fresh (needsRow used : Bool) (path : List Hop) (hop : Hop) (js : Joins) : Join :=
  { path := path ++ [hop]
    isOuter := (hop.isOptional || js.isOuter path) && !needsRow
    isUsed := used }

def Has (js : Joins) (path : List Hop) : Prop :=
  ∃ j ∈ js, j.path = path

def IsUsed (js : Joins) (path : List Hop) : Prop :=
  ∃ j ∈ js, j.path = path ∧ j.isUsed = true

def Distinct (js : Joins) : Prop :=
  (js.map (·.path)).Nodup

def IsInner (js : Joins) (path : List Hop) : Prop :=
  js.Has path ∧ js.isOuter path = false

theorem path_visit (needsRow used : Bool) (target : List Hop) (j : Join) :
    (visit needsRow used target j).path = j.path := by
  unfold visit
  split <;> rfl

theorem isOuter_visit (needsRow used : Bool) (target : List Hop) (j : Join) :
    (visit needsRow used target j).isOuter =
      if j.path = target then j.isOuter && !needsRow else j.isOuter := by
  unfold visit
  split <;> rfl

theorem isUsed_visit (needsRow used : Bool) (target : List Hop) (j : Join) :
    (visit needsRow used target j).isUsed =
      if j.path = target then j.isUsed || used else j.isUsed := by
  unfold visit
  split <;> rfl

theorem visit_of_ne {target : List Hop} {j : Join} (h : j.path ≠ target) :
    visit needsRow used target j = j :=
  if_neg h

theorem isOuter_iff : js.isOuter p = true ↔ ∃ j ∈ js, j.path = p ∧ j.isOuter = true := by
  simp [isOuter]

theorem isOuter_of_not_has (h : ¬ js.Has p) : js.isOuter p = false := by
  by_contra hne
  obtain ⟨j, hj, hpath, _⟩ := isOuter_iff.1 (by simpa using hne)
  exact h ⟨j, hj, hpath⟩

theorem extend_of_has (h : js.Has (path ++ [hop])) :
    js.extend needsRow used path hop = js.map (visit needsRow used (path ++ [hop])) := by
  have hany : js.any (·.path == path ++ [hop]) = true := by simpa [Has] using h
  exact if_pos hany

theorem extend_of_not_has (h : ¬ js.Has (path ++ [hop])) :
    js.extend needsRow used path hop = js ++ [fresh needsRow used path hop js] := by
  have hany : ¬ js.any (·.path == path ++ [hop]) = true := by simpa [Has] using h
  exact if_neg hany

theorem has_extend : (js.extend needsRow used path hop).Has p ↔
    js.Has p ∨ p = path ++ [hop] := by
  by_cases h : js.Has (path ++ [hop])
  · have hvisited : Has (js.map (visit needsRow used (path ++ [hop]))) p ↔ js.Has p := by
      simp [Has, path_visit]
    rw [extend_of_has h, hvisited]
    refine ⟨Or.inl, ?_⟩
    rintro (hp | rfl)
    · exact hp
    · exact h
  · rw [extend_of_not_has h]
    simp [Has, fresh, or_and_right, exists_or, eq_comm]

theorem isUsed_extend : (js.extend needsRow used path hop).IsUsed p ↔
    js.IsUsed p ∨ p = path ++ [hop] ∧ used = true := by
  by_cases h : js.Has (path ++ [hop])
  · rw [extend_of_has h]
    constructor
    · rintro ⟨_, hmem, rfl, hused⟩
      obtain ⟨j, hj, rfl⟩ := List.mem_map.1 hmem
      rw [isUsed_visit] at hused
      rw [path_visit]
      split_ifs at hused with hpath
      · rcases Bool.or_eq_true_iff.1 hused with hused | hused
        · exact .inl ⟨j, hj, rfl, hused⟩
        · exact .inr ⟨hpath, hused⟩
      · exact .inl ⟨j, hj, rfl, hused⟩
    · rintro (⟨j, hj, rfl, hused⟩ | ⟨rfl, hused⟩)
      · refine ⟨_, List.mem_map_of_mem hj, path_visit .., ?_⟩
        rw [isUsed_visit, hused, Bool.true_or, ite_self]
      · obtain ⟨j, hj, hpath⟩ := h
        refine ⟨_, List.mem_map_of_mem hj, (path_visit ..).trans hpath, ?_⟩
        rw [isUsed_visit, if_pos hpath, hused, Bool.or_true]
  · rw [extend_of_not_has h]
    constructor
    · rintro ⟨j, hj, rfl, hused⟩
      rcases List.mem_append.1 hj with hj | hj
      · exact .inl ⟨j, hj, rfl, hused⟩
      · obtain rfl := List.mem_singleton.1 hj
        exact .inr ⟨rfl, hused⟩
    · rintro (⟨j, hj, rfl, hused⟩ | ⟨rfl, hused⟩)
      · exact ⟨j, List.mem_append_left _ hj, rfl, hused⟩
      · exact ⟨_, List.mem_append_right _ (List.mem_singleton.2 rfl), rfl, hused⟩

theorem isOuter_extend_of_ne (h : p ≠ path ++ [hop]) :
    (js.extend needsRow used path hop).isOuter p = js.isOuter p := by
  rw [Bool.eq_iff_iff, isOuter_iff, isOuter_iff]
  by_cases hhas : js.Has (path ++ [hop])
  · rw [extend_of_has hhas]
    constructor
    · rintro ⟨_, hmem, rfl, houter⟩
      obtain ⟨j, hj, rfl⟩ := List.mem_map.1 hmem
      rw [path_visit] at h ⊢
      rw [visit_of_ne h] at houter
      exact ⟨j, hj, rfl, houter⟩
    · rintro ⟨j, hj, rfl, houter⟩
      exact ⟨j, List.mem_map.2 ⟨j, hj, visit_of_ne h⟩, rfl, houter⟩
  · rw [extend_of_not_has hhas]
    constructor
    · rintro ⟨j, hj, rfl, houter⟩
      rcases List.mem_append.1 hj with hj | hj
      · exact ⟨j, hj, rfl, houter⟩
      · exact absurd (congrArg Join.path (List.mem_singleton.1 hj)) h
    · rintro ⟨j, hj, rfl, houter⟩
      exact ⟨j, List.mem_append_left _ hj, rfl, houter⟩

theorem isOuter_extend_of_has (h : js.Has (path ++ [hop])) :
    (js.extend needsRow used path hop).isOuter (path ++ [hop]) =
      (js.isOuter (path ++ [hop]) && !needsRow) := by
  rw [extend_of_has h, Bool.eq_iff_iff, Bool.and_eq_true, isOuter_iff, isOuter_iff]
  constructor
  · rintro ⟨_, hmem, hpath, houter⟩
    obtain ⟨j, hj, rfl⟩ := List.mem_map.1 hmem
    rw [path_visit] at hpath
    rw [isOuter_visit, if_pos hpath, Bool.and_eq_true] at houter
    exact ⟨⟨j, hj, hpath, houter.1⟩, houter.2⟩
  · rintro ⟨⟨j, hj, hpath, houter⟩, hneeds⟩
    refine ⟨_, List.mem_map_of_mem hj, (path_visit ..).trans hpath, ?_⟩
    rw [isOuter_visit, if_pos hpath, houter, hneeds, Bool.true_and]

theorem isOuter_extend_of_not_has (h : ¬ js.Has (path ++ [hop])) :
    (js.extend needsRow used path hop).isOuter (path ++ [hop]) =
      ((hop.isOptional || js.isOuter path) && !needsRow) := by
  have hnew : js.isOuter (path ++ [hop]) = false := isOuter_of_not_has h
  rw [isOuter] at hnew
  rw [extend_of_not_has h, isOuter, List.any_append, hnew, List.any_cons, fresh]
  simp

theorem isOuter_extend_self :
    (js.extend true used path hop).isOuter (path ++ [hop]) = false := by
  by_cases h : js.Has (path ++ [hop])
  · rw [isOuter_extend_of_has h, Bool.not_true, Bool.and_false]
  · rw [isOuter_extend_of_not_has h, Bool.not_true, Bool.and_false]

theorem Distinct.extend (h : js.Distinct) : (js.extend needsRow used path hop).Distinct := by
  by_cases hhas : js.Has (path ++ [hop])
  · rw [Distinct, extend_of_has hhas, List.map_map]
    rwa [show (Join.path ∘ visit needsRow used (path ++ [hop])) = Join.path from
      funext fun j => path_visit ..]
  · have hnew : path ++ [hop] ∉ js.map (·.path) := by
      intro hmem
      obtain ⟨j, hj, hpath⟩ := List.mem_map.1 hmem
      exact hhas ⟨j, hj, hpath⟩
    rw [Distinct, extend_of_not_has hhas, List.map_append]
    refine List.nodup_append.2 ⟨h, List.pairwise_singleton .., ?_⟩
    intro a ha b hb heq
    obtain rfl : b = path ++ [hop] := List.mem_singleton.1 hb
    exact hnew (heq ▸ ha)

/-- What extending by one hop of a path preserves, asking for the path preserves; before each hop,
there is a join for the hops before it. -/
theorem extendAll_induction {motive : Joins → Prop} {hops : List Hop} {count : Nat}
    (hstart : motive js) (hpath : path = [] ∨ js.Has path)
    (step : ∀ (js : Joins) (used : Bool) (before : List Hop) (hop : Hop),
      before ++ [hop] <+: path ++ hops → (before = [] ∨ js.Has before) → motive js →
        motive (js.extend needsRow used before hop)) :
    motive (extendAll needsRow count path hops js) := by
  induction hops generalizing js path count with
  | nil => exact hstart
  | cons hop hops ih =>
      have hstarts : path ++ [hop] <+: path ++ hop :: hops :=
        ⟨hops, by rw [List.append_assoc]; rfl⟩
      refine ih (step js _ path hop hstarts hpath hstart) (.inr (has_extend.2 (.inr rfl))) ?_
      intro js used before next hbefore
      refine step js used before next ?_
      rwa [List.append_assoc, List.singleton_append] at hbefore

theorem add_induction {motive : Joins → Prop} (hstart : motive js)
    (step : ∀ (js : Joins) (used : Bool) (before : List Hop) (hop : Hop),
      before ++ [hop] <+: t.path → (before = [] ∨ js.Has before) → motive js →
        motive (js.extend t.needsRow used before hop)) :
    motive (js.add t) :=
  extendAll_induction hstart (.inl rfl) step

theorem Distinct.add (h : js.Distinct) : (js.add t).Distinct :=
  add_induction (motive := Distinct) h fun _ _ _ _ _ _ h => h.extend

theorem IsInner.extend (h : js.IsInner p) : (js.extend needsRow used path hop).IsInner p := by
  refine ⟨has_extend.2 (.inl h.1), ?_⟩
  by_cases hp : p = path ++ [hop]
  · subst hp
    rw [isOuter_extend_of_has h.1, h.2, Bool.false_and]
  · rw [isOuter_extend_of_ne hp, h.2]

theorem IsInner.add (h : js.IsInner p) : (js.add t).IsInner p :=
  add_induction (motive := (IsInner · p)) h fun _ _ _ _ _ _ h => h.extend

theorem isOuter_nil_add (h : js.isOuter [] = false) : (js.add t).isOuter [] = false :=
  add_induction (motive := (isOuter · [] = false)) h fun js used before hop _ _ h => by
    rw [isOuter_extend_of_ne (by simp), h]

theorem isUsed_extendAll {count : Nat} {hops : List Hop} :
    (extendAll needsRow count path hops js).IsUsed p ↔
      js.IsUsed p ∨
        ∃ more, more ≠ [] ∧ more <+: hops ∧ more.length ≤ count ∧ p = path ++ more := by
  induction hops generalizing js path count with
  | nil => simp [extendAll]
  | cons hop hops ih =>
      rw [extendAll, ih, isUsed_extend]
      constructor
      · rintro ((h | ⟨rfl, hcount⟩) | ⟨more, hne, hstarts, hlength, rfl⟩)
        · exact .inl h
        · refine .inr ⟨[hop], by simp, by simp, ?_, rfl⟩
          simpa [Nat.one_le_iff_ne_zero, Nat.pos_iff_ne_zero] using hcount
        · refine .inr ⟨hop :: more, by simp, ?_, ?_, by simp⟩
          · exact (List.prefix_cons_inj hop).2 hstarts
          · have hpos := List.length_pos_of_ne_nil hne
            rw [List.length_cons]
            omega
      · rintro (h | ⟨more, hne, hstarts, hlength, rfl⟩)
        · exact .inl (.inl h)
        · obtain ⟨first, more, rfl⟩ := List.exists_cons_of_ne_nil hne
          obtain ⟨rfl, hmore⟩ := List.cons_prefix_cons.1 hstarts
          rw [List.length_cons] at hlength
          by_cases hnil : more = []
          · subst hnil
            exact .inl (.inr ⟨rfl, decide_eq_true (by simp at hlength; omega)⟩)
          · exact .inr ⟨more, hnil, hmore, by omega, by simp⟩

theorem isUsed_add : (js.add t).IsUsed p ↔ js.IsUsed p ∨ t.Uses p := by
  rw [add, isUsed_extendAll]
  refine or_congr_right ?_
  constructor
  · rintro ⟨more, hne, hstarts, hlength, rfl⟩
    exact ⟨hne, hstarts, hlength⟩
  · rintro ⟨hne, hstarts, hlength⟩
    exact ⟨p, hne, hstarts, hlength, rfl⟩

theorem isInner_extendAll_of_needs {count : Nat} {hops more : List Hop} (hne : more ≠ [])
    (hstarts : more <+: hops) : (extendAll true count path hops js).IsInner (path ++ more) := by
  induction hops generalizing js path count more with
  | nil => exact absurd (List.prefix_nil.1 hstarts) hne
  | cons hop hops ih =>
      obtain ⟨first, more, rfl⟩ := List.exists_cons_of_ne_nil hne
      obtain ⟨rfl, hmore⟩ := List.cons_prefix_cons.1 hstarts
      rw [extendAll]
      by_cases hnil : more = []
      · subst hnil
        have hinner : (js.extend true (0 < count) path first).IsInner (path ++ [first]) :=
          ⟨has_extend.2 (.inr rfl), isOuter_extend_self⟩
        exact extendAll_induction (motive := (IsInner · _)) hinner (.inr hinner.1)
          fun _ _ _ _ _ _ h => h.extend
      · have happend : path ++ first :: more = (path ++ [first]) ++ more := by simp
        rw [happend]
        exact ih hnil hmore

theorem isInner_add_of_needs (hne : p ≠ []) (h : t.Needs p) : (js.add t).IsInner p := by
  rw [add, h.1]
  exact isInner_extendAll_of_needs hne h.2

def addAll (js : Joins) (ts : List Touch) : Joins :=
  ts.foldl add js

theorem addAll_induction {motive : Joins → Prop} {ts : List Touch} (hstart : motive js)
    (step : ∀ (js : Joins), ∀ t ∈ ts, motive js → motive (js.add t)) : motive (js.addAll ts) := by
  induction ts generalizing js with
  | nil => exact hstart
  | cons t ts ih =>
      refine ih (step js t List.mem_cons_self hstart) fun js next hnext => ?_
      exact step js next (List.mem_cons_of_mem t hnext)

theorem isUsed_addAll {ts : List Touch} :
    (js.addAll ts).IsUsed p ↔ js.IsUsed p ∨ ∃ t ∈ ts, t.Uses p := by
  induction ts generalizing js with
  | nil => simp [addAll]
  | cons t ts ih =>
      show ((js.add t).addAll ts).IsUsed p ↔ _
      rw [ih, isUsed_add, or_assoc, List.exists_mem_cons_iff]

theorem Distinct.addAll (h : js.Distinct) (ts : List Touch) : (js.addAll ts).Distinct :=
  addAll_induction (motive := Distinct) h fun _ _ _ h => h.add

theorem distinct_ofTouches (ts : List Touch) : (ofTouches ts).Distinct :=
  (show Distinct [] from List.nodup_nil).addAll ts

theorem isOuter_nil_ofTouches (ts : List Touch) : (ofTouches ts).isOuter [] = false := by
  show (addAll [] ts).isOuter [] = false
  exact addAll_induction (motive := (isOuter · [] = false)) rfl fun _ _ _ h => isOuter_nil_add h

theorem IsInner.addAll (h : js.IsInner p) (ts : List Touch) : (js.addAll ts).IsInner p :=
  addAll_induction (motive := (IsInner · p)) h fun _ _ _ h => h.add

theorem isInner_addAll_of_needs {ts : List Touch} (ht : t ∈ ts) (hne : p ≠ []) (h : t.Needs p) :
    (js.addAll ts).IsInner p := by
  induction ts generalizing js with
  | nil => cases ht
  | cons first ts ih =>
      rcases List.mem_cons.1 ht with rfl | ht
      · exact (isInner_add_of_needs hne h).addAll ts
      · exact ih ht

/-- Whether the join for a path is inner however it comes about: it is inner already, or it is yet
to be brought and neither its last hop nor the path before makes it outer. -/
inductive InnerFrom (js : Joins) : List Hop → Prop
  | root : InnerFrom js []
  | inner {path : List Hop} : js.IsInner path → InnerFrom js path
  | step {path : List Hop} {hop : Hop} : InnerFrom js path → ¬ js.Has (path ++ [hop]) →
      hop.isOptional = false → InnerFrom js (path ++ [hop])

/-- Joins that others grew into: none is lost, and all that must be inner from the start on are. -/
structure Grown (start js : Joins) : Prop where
  has : ∀ p, start.Has p → js.Has p
  inner : ∀ p, InnerFrom start p → js.isOuter p = false

variable {start : Joins}

theorem Grown.refl (h : start.isOuter [] = false) : Grown start start := by
  refine ⟨fun p hp => hp, fun p hp => ?_⟩
  cases hp with
  | root => exact h
  | inner hinner => exact hinner.2
  | step _ hnew _ => exact isOuter_of_not_has hnew

theorem Grown.extend (h : Grown start js) : Grown start (js.extend needsRow used path hop) := by
  refine ⟨fun p hp => has_extend.2 (.inl (h.has p hp)), fun p hp => ?_⟩
  by_cases heq : p = path ++ [hop]
  · subst heq
    by_cases hhas : js.Has (path ++ [hop])
    · rw [isOuter_extend_of_has hhas, h.inner _ hp, Bool.false_and]
    · rw [isOuter_extend_of_not_has hhas]
      -- the join is brought now, so it must be inner for its last hop and the path before
      generalize htarget : path ++ [hop] = target at hp
      cases hp with
      | root => simp at htarget
      | inner hinner => exact absurd (h.has _ (htarget ▸ hinner.1)) hhas
      | step hbefore _ hoptional =>
          obtain ⟨rfl, hlast⟩ := List.append_inj' htarget rfl
          obtain rfl := List.singleton_inj.1 hlast
          rw [hoptional, h.inner _ hbefore, Bool.false_or, Bool.false_and]
  · rw [isOuter_extend_of_ne heq]
    exact h.inner p hp

theorem Grown.addAll (h : Grown start js) (ts : List Touch) : Grown start (js.addAll ts) :=
  addAll_induction (motive := Grown start) h fun _ _ _ h =>
    add_induction (motive := Grown start) h fun _ _ _ _ _ _ h => h.extend

/-- Whether joins have all that they had at the start, and only such inner ones as were so then or
have a property. -/
def InnerBy (start : Joins) (F : List Hop → Prop) (js : Joins) : Prop :=
  (∀ p, start.Has p → js.Has p) ∧ ∀ p, js.IsInner p → InnerFrom start p ∨ F p

variable {F : List Hop → Prop}

/-- One more hop makes a path inner only if it is needed, or is not optional and follows an inner
one. -/
theorem InnerBy.extend (h : InnerBy start F js) (hpath : path = [] ∨ js.Has path)
    (hneeds : needsRow = true → F (path ++ [hop]))
    (hstep : hop.isOptional = false → F path → F (path ++ [hop])) :
    InnerBy start F (js.extend needsRow used path hop) := by
  refine ⟨fun p hp => has_extend.2 (.inl (h.1 p hp)), fun p hp => ?_⟩
  by_cases heq : p = path ++ [hop]
  · subst heq
    cases hrow : needsRow with
    | true => exact .inr (hneeds hrow)
    | false =>
        by_cases hold : js.Has (path ++ [hop])
        · have houter := isOuter_extend_of_has hold ▸ hp.2
          rw [hrow, Bool.not_false, Bool.and_true] at houter
          exact h.2 _ ⟨hold, houter⟩
        · have houter := isOuter_extend_of_not_has hold ▸ hp.2
          rw [hrow, Bool.not_false, Bool.and_true, Bool.or_eq_false_iff] at houter
          -- the join is brought now, so it was not there at the start either
          have hnew : ¬ start.Has (path ++ [hop]) := fun hp => hold (h.1 _ hp)
          have hparent : InnerFrom start path ∨ F path := by
            rcases hpath with rfl | hpath
            · exact .inl .root
            · exact h.2 _ ⟨hpath, houter.2⟩
          exact hparent.imp (.step · hnew houter.1) (hstep houter.1)
  · refine h.2 p ⟨(has_extend.1 hp.1).resolve_right heq, ?_⟩
    rw [← isOuter_extend_of_ne heq]
    exact hp.2

/-- A join that became inner was so from the start on, or has a property that holds of every path
that is needed and is handed on by hops that are not optional. -/
theorem innerFrom_or_of_isInner {ts : List Touch} (hneeds : ∀ t ∈ ts, ∀ p, t.Needs p → F p)
    (hstep : ∀ t ∈ ts, ∀ path hop, path ++ [hop] <+: t.path → hop.isOptional = false → F path →
      F (path ++ [hop]))
    (hp : (start.addAll ts).IsInner p) : InnerFrom start p ∨ F p := by
  have hstart : InnerBy start F start := ⟨fun _ hp => hp, fun _ hp => .inl (.inner hp)⟩
  have hall : InnerBy start F (start.addAll ts) := by
    refine addAll_induction (motive := InnerBy start F) hstart fun js t ht hjs => ?_
    refine add_induction (motive := InnerBy start F) hjs ?_
    intro js used before hop hstarts hbefore hjs
    exact hjs.extend hbefore (fun hrow => hneeds t ht _ ⟨hrow, hstarts⟩)
      (hstep t ht before hop hstarts)
  exact hall.2 p hp

/-- Distinct joins keep a row exactly if every path that is used and inner leads somewhere. -/
theorem keep_iff (h : js.Distinct) {db : Database} {row : Row} : js.keep db row = true ↔
    ∀ p, js.IsUsed p → js.IsInner p → followHops db p row ≠ [] := by
  have hsame {i j : Join} (hi : i ∈ js) (hj : j ∈ js) (hpath : i.path = j.path) : i = j :=
    List.inj_on_of_nodup_map h hi hj hpath
  rw [keep, List.all_eq_true]
  constructor
  · rintro hall p ⟨j, hj, rfl, hused⟩ ⟨_, hinner⟩ hnil
    have houter : j.isOuter = false := by
      by_contra hne
      rw [isOuter_iff.2 ⟨j, hj, rfl, by simpa using hne⟩] at hinner
      cases hinner
    simpa [houter, hused, hnil] using hall j hj
  · intro hall j hj
    cases houter : j.isOuter with
    | true => rfl
    | false =>
        cases hused : j.isUsed with
        | false => rfl
        | true =>
            have hinner : js.IsInner j.path := by
              refine ⟨⟨j, hj, rfl⟩, ?_⟩
              by_contra hne
              obtain ⟨i, hi, hpath, hi'⟩ := isOuter_iff.1 (by simpa using hne)
              rw [hsame hi hj hpath, houter] at hi'
              cases hi'
            simpa [List.isEmpty_iff] using hall j.path ⟨j, hj, rfl, hused⟩ hinner

variable {db : Database} {row : Row} {ts : List Touch}

theorem keep_of_keep_addAll (hdistinct : start.Distinct)
    (h : (start.addAll ts).keep db row = true) : start.keep db row = true := by
  rw [keep_iff hdistinct]
  rw [keep_iff (hdistinct.addAll ts)] at h
  exact fun p hused hinner => h p (isUsed_addAll.2 (.inl hused)) (hinner.addAll ts)

/-- What one condition asks for leaves out no row that all conditions together keep. -/
theorem keep_add_of_keep_addAll (hdistinct : start.Distinct) (hroot : start.isOuter [] = false)
    (ht : t ∈ ts) (h : (start.addAll ts).keep db row = true) :
    (start.add t).keep db row = true := by
  rw [keep_iff hdistinct.add]
  rw [keep_iff (hdistinct.addAll ts)] at h
  intro p hused hinner
  have husedAll : (start.addAll ts).IsUsed p :=
    isUsed_addAll.2 ((isUsed_add.1 hused).imp_right fun huses => ⟨t, ht, huses⟩)
  refine h p husedAll ?_
  have hhas : (start.addAll ts).Has p := by
    obtain ⟨j, hj, hpath, _⟩ := husedAll
    exact ⟨j, hj, hpath⟩
  -- an inner join of one condition is inner for all of them, for one of two reasons
  have hcases : InnerFrom start p ∨ t.Needs p := by
    have halone : (start.addAll [t]).IsInner p := hinner
    refine innerFrom_or_of_isInner (F := t.Needs) ?_ ?_ halone
    · rintro t' ht' p hp
      rwa [List.mem_singleton.1 ht'] at hp
    · rintro t' ht' path hop hstarts - hpath
      exact ⟨hpath.1, List.mem_singleton.1 ht' ▸ hstarts⟩
  rcases hcases with hfrom | hneeds
  · exact ⟨hhas, ((Grown.refl hroot).addAll ts).inner p hfrom⟩
  · by_cases hnil : p = []
    · subst hnil
      exact ⟨hhas, ((Grown.refl hroot).addAll ts).inner [] .root⟩
    · exact isInner_addAll_of_needs ht hnil hneeds

theorem isUsed_ofTouches_of_prefix (hused : (ofTouches ts).IsUsed p) (hbefore : path <+: p)
    (hne : path ≠ []) : (ofTouches ts).IsUsed path := by
  rcases isUsed_addAll.1 hused with ⟨j, hj, _⟩ | ⟨t, ht, _, hstarts, hlength⟩
  · cases hj
  · refine isUsed_addAll.2 (.inr ⟨t, ht, hne, hbefore.trans hstarts, ?_⟩)
    exact hbefore.length_le.trans hlength

/-- Whether a path continues one that is needed, and leads somewhere if that one does. -/
def Continues (db : Database) (row : Row) (ts : List Touch) (p : List Hop) : Prop :=
  ∃ needed, needed <+: p ∧ (∃ t ∈ ts, t.Needs needed) ∧
    (followHops db needed row ≠ [] → followHops db p row ≠ [])

/-- Where hops that are not optional lead somewhere, what is inner was so from the start on or
continues what is needed. -/
theorem innerFrom_or_continues (hintact : ∀ t ∈ ts, t.IsIntact db row)
    (hinner : (start.addAll ts).IsInner p) : InnerFrom start p ∨ Continues db row ts p := by
  refine innerFrom_or_of_isInner ?_ ?_ hinner
  · intro t ht p hneeds
    exact ⟨p, List.prefix_rfl, ⟨t, ht, hneeds⟩, id⟩
  · rintro t ht path hop hstarts hoptional ⟨needed, hneeded, hneeds, hfollowed⟩
    refine ⟨needed, hneeded.trans (List.prefix_append _ _), hneeds, fun hne => ?_⟩
    exact hintact t ht path hop hstarts hoptional (hfollowed hne)

variable {base : List Touch}

/-- Where hops that are not optional lead somewhere, conditions together keep a row exactly if each
path that one of them uses, and that one of them needs or that must be inner from the start on,
leads somewhere. The order of the conditions has no say in this. -/
theorem keep_addAll_iff (hintact : ∀ t ∈ ts, t.IsIntact db row) :
    ((ofTouches base).addAll ts).keep db row = true ↔
      ∀ p, ((ofTouches base).IsUsed p ∨ ∃ t ∈ ts, t.Uses p) →
        (InnerFrom (ofTouches base) p ∨ ∃ t ∈ ts, t.Needs p) → followHops db p row ≠ [] := by
  have hroot := isOuter_nil_ofTouches base
  rw [keep_iff ((distinct_ofTouches base).addAll ts)]
  constructor
  · intro h p hused hinner
    have husedAll : ((ofTouches base).addAll ts).IsUsed p := isUsed_addAll.2 hused
    refine h p husedAll ?_
    obtain ⟨j, hj, hpath, _⟩ := husedAll
    rcases hinner with hfrom | ⟨t, ht, hneeds⟩
    · exact ⟨⟨j, hj, hpath⟩, ((Grown.refl hroot).addAll ts).inner p hfrom⟩
    · by_cases hnil : p = []
      · subst hnil
        exact ⟨⟨j, hj, hpath⟩, ((Grown.refl hroot).addAll ts).inner [] .root⟩
      · exact isInner_addAll_of_needs ht hnil hneeds
  · intro h p hused hinner
    rcases innerFrom_or_continues hintact hinner with hfrom | ⟨needed, hneeded, hneeds, hfollowed⟩
    · exact h p (isUsed_addAll.1 hused) (.inl hfrom)
    · refine hfollowed ?_
      by_cases hnil : needed = []
      · rw [hnil]
        exact List.cons_ne_nil _ _
      · -- the path that is needed is used, since the one that continues it is
        have happend : (ofTouches base).addAll ts = ofTouches (base ++ ts) :=
          List.foldl_append.symm
        have husedNeeded : ((ofTouches base).addAll ts).IsUsed needed := by
          rw [happend] at hused ⊢
          exact isUsed_ofTouches_of_prefix hused hneeded hnil
        exact h needed (isUsed_addAll.1 husedNeeded) (.inr hneeds)

/-- Together conditions leave out a row that each of them keeps only for want of a row that one of
them needs: if the rows that they need are there, and hops that are not optional lead somewhere. -/
theorem keep_addAll (hneeds : ∀ t ∈ ts, t.needsRow = true → followHops db t.path row ≠ [])
    (hintact : ∀ t ∈ ts, t.IsIntact db row) (hstart : (ofTouches base).keep db row = true)
    (h : ∀ t ∈ ts, ((ofTouches base).add t).keep db row = true) :
    ((ofTouches base).addAll ts).keep db row = true := by
  rw [keep_addAll_iff hintact]
  rintro p hused (hfrom | ⟨t, ht, hrow, hstarts⟩)
  · -- what must be inner from the start on is inner for each condition alone
    rcases hused with hused | ⟨t, ht, huses⟩
    · have halone : ((ofTouches base).addAll []).keep db row = true := hstart
      exact (keep_addAll_iff (by simp)).1 halone p (.inl hused) (.inl hfrom)
    · have halone := (keep_addAll_iff (List.forall_mem_singleton.2 (hintact t ht))).1 (h t ht)
      exact halone p (.inr ⟨t, List.mem_singleton_self t, huses⟩) (.inl hfrom)
  · exact followHops_ne_nil_of_prefix (hneeds t ht hrow) hstarts

theorem keep_addAll_of_perm {us : List Touch} (hperm : us.Perm ts)
    (hintact : ∀ t ∈ ts, t.IsIntact db row) : ((ofTouches base).addAll us).keep db row =
      ((ofTouches base).addAll ts).keep db row := by
  have hintact' : ∀ t ∈ us, t.IsIntact db row := fun t ht => hintact t (hperm.mem_iff.1 ht)
  rw [Bool.eq_iff_iff, keep_addAll_iff hintact, keep_addAll_iff hintact']
  simp only [hperm.mem_iff]

end Joins

end RowFilter
