import RowFilter.Proofs.Indices

/-!
Recognition of keys. Of all parameters only those make a difference whose names are written as the
wanted head, with a name and perhaps further texts in brackets behind it. Such a name can be taken
apart in one way, and what is read of the parameter depends on these texts alone. Any other
parameter may come or go without a trace; one that has a key, but of no known form, leaves a record
and nothing else.
-/

namespace RowFilter.Parameters

open BracketKey

/-- Whether the name of a parameter is written as the wanted head and, each in brackets, a name and
further texts; one newline may follow. -/
structure IsKey (head : Value) (rawKey name : String) (rest : List String) : Prop where
  name_ne : name ≠ ""
  written : ∃ text, head.asText? = some text ∧ IsWritable ⟨text, name :: rest⟩ ∧
    (rawKey = write ⟨text, name :: rest⟩ ∨ rawKey = write ⟨text, name :: rest⟩ ++ "\n")

/-- Whether the texts behind a name make up one of the forms that keys have. -/
inductive HasForm : List String → Prop where
  | value : HasForm []
  | entry {sub : String} (hsub : sub ≠ "") : HasForm [sub]
  | indexed {digits sub : String} (hdigits : isIndex digits = true) (hsub : sub ≠ "") :
      HasForm [digits, sub]

def IsHeeded (head : Value) (rawKey : String) : Prop :=
  ∃ name rest, IsKey head rawKey name rest ∧ HasForm rest

inductive Takes (c : Collected) (rawKey name : String) (value : Value) :
    List String → Outcome Collected → Prop where
  | value : Takes c rawKey name value [] (pure (c.setValue name value))
  | entry {sub : String} (hsub : sub ≠ "") :
      Takes c rawKey name value [sub] (pure (c.setEntry name sub value))
  | item {digits sub : String} {index : Nat} (hdigits : isIndex digits = true) (hsub : sub ≠ "")
      (hindex : readIndex digits = .ok index) :
      Takes c rawKey name value [digits, sub] (pure (c.setItem name index sub value))
  /-- The index cannot be read. -/
  | fault {digits sub : String} {fault : Fault} (hdigits : isIndex digits = true) (hsub : sub ≠ "")
      (hindex : readIndex digits = .error fault) :
      Takes c rawKey name value [digits, sub] (.fail fault)
  | record {rest : List String} (hrest : ¬ HasForm rest) :
      Takes c rawKey name value rest ⟨[unsupportedRecord rawKey], .ok c⟩

inductive DifferIn (p : String → Prop) : Mapping Value → Mapping Value → Prop where
  | nil : DifferIn p [] []
  | both {first second : Mapping Value} (a : String × Value) (h : DifferIn p first second) :
      DifferIn p (a :: first) (a :: second)
  | left {first second : Mapping Value} {a : String × Value} (ha : p a.1)
      (h : DifferIn p first second) : DifferIn p (a :: first) second
  | right {first second : Mapping Value} {b : String × Value} (hb : p b.1)
      (h : DifferIn p first second) : DifferIn p first (b :: second)

variable {settings : Settings} {param : Option String} {head raw value : Value} {c : Collected}
  {rawKey name : String} {rest : List String} {first second : Mapping Value} {p : String → Prop}
  {x : Outcome Collected}

theorem hasForm_iff : HasForm rest ↔ ∃ form, formOf? rest = some form := by
  constructor
  · intro h
    cases h with
    | value => exact ⟨.value, rfl⟩
    | @entry sub hsub => exact ⟨.entry sub, formOf?_eq_some_iff.2 ⟨rfl, hsub⟩⟩
    | @indexed digits sub hdigits hsub =>
        exact ⟨.indexed digits sub, formOf?_eq_some_iff.2 ⟨rfl, hdigits, hsub⟩⟩
  · rintro ⟨form, hform⟩
    have hparts := formOf?_eq_some_iff.1 hform
    cases form with
    | value =>
        obtain rfl : rest = [] := hparts
        exact .value
    | entry sub =>
        obtain ⟨rfl, hsub⟩ := hparts
        exact .entry hsub
    | indexed digits sub =>
        obtain ⟨rfl, hdigits, hsub⟩ := hparts
        exact .indexed hdigits hsub

/-! ### One parameter -/

theorem isKey_iff : IsKey head rawKey name rest ↔
    ∃ text, read? rawKey = some ⟨text, name :: rest⟩ ∧ head.asText? = some text ∧ name ≠ "" := by
  constructor
  · rintro ⟨hname, text, hhead, hkey, hwritten⟩
    exact ⟨text, read?_eq_some_iff.2 ⟨hkey, hwritten⟩, hhead, hname⟩
  · rintro ⟨text, hread, hhead, hname⟩
    obtain ⟨hkey, hwritten⟩ := read?_eq_some_iff.1 hread
    exact ⟨hname, text, hhead, hkey, hwritten⟩

theorem IsKey.unique {other : String} {more : List String} (h : IsKey head rawKey name rest)
    (h' : IsKey head rawKey other more) : other = name ∧ more = rest := by
  obtain ⟨text, hread, _⟩ := isKey_iff.1 h
  obtain ⟨text', hread', _⟩ := isKey_iff.1 h'
  have hkeys := Option.some.inj (hread'.symm.trans hread)
  simp only [BracketKey.mk.injEq, List.cons.injEq] at hkeys
  exact hkeys.2

theorem readOne_of_not_isKey (h : ¬ ∃ name rest, IsKey head rawKey name rest) (c : Collected)
    (raw : Value) : readOne head c rawKey raw = pure c := by
  unfold readOne
  split
  · next text name rest hread =>
    refine if_pos ?_
    by_contra hused
    push Not at hused
    exact h ⟨name, rest, isKey_iff.2 ⟨text, hread, hused⟩⟩
  · rfl

theorem IsKey.takes (h : IsKey head rawKey name rest) (c : Collected) (raw : Value) :
    Takes c rawKey name (lastOf raw) rest (readOne head c rawKey raw) := by
  obtain ⟨text, hread, hhead, hname⟩ := isKey_iff.1 h
  have hused : ¬ (head.asText? ≠ some text ∨ name = "") := by
    push Not
    exact ⟨hhead, hname⟩
  simp only [readOne, hread]
  rw [if_neg hused]
  cases hform : formOf? rest with
  | none =>
      refine .record ?_
      rw [hasForm_iff, hform]
      rintro ⟨form, hform⟩
      cases hform
  | some form =>
      have hparts := formOf?_eq_some_iff.1 hform
      cases form with
      | value =>
          obtain rfl : rest = [] := hparts
          exact .value
      | entry sub =>
          obtain ⟨rfl, hsub⟩ := hparts
          exact .entry hsub
      | indexed digits sub =>
          obtain ⟨rfl, hdigits, hsub⟩ := hparts
          dsimp only
          cases hindex : readIndex digits with
          | error fault => exact .fault hdigits hsub hindex
          | ok index => exact .item hdigits hsub hindex

/-- A parameter that is not heeded leaves what was collected as it is. -/
theorem result_readOne_of_not_isHeeded (h : ¬ IsHeeded head rawKey) (c : Collected) (raw : Value) :
    (readOne head c rawKey raw).result = .ok c := by
  by_cases hkey : ∃ name rest, IsKey head rawKey name rest
  · obtain ⟨name, rest, hkey⟩ := hkey
    have hform : ¬ HasForm rest := fun hform => h ⟨name, rest, hkey, hform⟩
    have htakes := hkey.takes c raw
    generalize readOne head c rawKey raw = x at htakes
    cases htakes with
    | value => exact absurd .value hform
    | entry hsub => exact absurd (.entry hsub) hform
    | item hdigits hsub => exact absurd (.indexed hdigits hsub) hform
    | fault hdigits hsub => exact absurd (.indexed hdigits hsub) hform
    | record => rfl
  · rw [readOne_of_not_isKey hkey]
    rfl

/-- What is taken where nothing was collected shows in the end. -/
theorem Takes.andThen_result_ne (h : Takes {} rawKey name value rest x) :
    (x.andThen fun c => pure c.result) ≠ pure [] := by
  intro hx
  have hlog := congrArg Outcome.log hx
  have hresult := congrArg Outcome.result hx
  cases h with
  | value => cases hresult
  | entry => cases hresult
  | item => cases hresult
  | fault => cases hresult
  | record => cases hlog

/-! ### All parameters -/

theorem collect_congr (h : DifferIn p first second)
    (hp : ∀ rawKey, p rawKey → ∀ c raw, readOne head c rawKey raw = pure c) (c : Collected) :
    collect head c first = collect head c second := by
  induction h generalizing c with
  | nil => rfl
  | both a _ ih =>
      rw [collect, collect]
      congr 1
      funext next
      exact ih next
  | left ha _ ih => rw [collect, hp _ ha, pure_bind, ih]
  | right hb _ ih => rw [collect, hp _ hb, pure_bind, ih]

theorem result_collect_congr (h : DifferIn p first second)
    (hp : ∀ rawKey, p rawKey → ∀ c raw, (readOne head c rawKey raw).result = .ok c)
    (c : Collected) : (collect head c first).result = (collect head c second).result := by
  induction h generalizing c with
  | nil => rfl
  | both a _ ih =>
      rw [collect, collect, Outcome.result_bind, Outcome.result_bind]
      congr 1
      funext next
      exact ih next
  | left ha _ ih =>
      rw [collect, Outcome.result_bind, hp _ ha]
      exact ih c
  | right hb _ ih =>
      rw [collect, Outcome.result_bind, hp _ hb]
      exact ih c

theorem filters_nil : filters settings [] param = pure [] := rfl

theorem filters_singleton (settings : Settings) (rawKey : String) (raw : Value)
    (param : Option String) : filters settings [(rawKey, raw)] param =
      (readOne (headOf settings param) {} rawKey raw).andThen fun c => pure c.result := by
  rw [filters_eq, collect]
  simp only [collect, bind_pure]

/-- The name of a parameter is a key of the wanted head, which is that of the settings where none or
an empty one is given, exactly if the parameter alone makes a difference to what is read or logged.
It is so in one way only, and what the parameter makes of what was collected is told by its texts in
brackets, in order. Parameters that differ only where there is no key, or none of a known form, are
read as one and the same mapping, in the same order, or fail alike; and where there is no key they
do not even differ in what is logged. -/
theorem filters_heedsKeys (settings : Settings) (param : Option String) :
    (∀ rawKey, (∃ name rest, IsKey (headOf settings param) rawKey name rest) ↔
      ∃ raw, filters settings [(rawKey, raw)] param ≠ filters settings [] param) ∧
    (∀ rawKey name rest, IsKey (headOf settings param) rawKey name rest →
      (∀ other more, IsKey (headOf settings param) rawKey other more →
        other = name ∧ more = rest) ∧
      ∀ c raw, Takes c rawKey name (lastOf raw) rest
        (readOne (headOf settings param) c rawKey raw)) ∧
    (∀ first second, DifferIn (fun rawKey => ¬ IsHeeded (headOf settings param) rawKey)
        first second →
      (filters settings first param).result = (filters settings second param).result) ∧
    ∀ first second, DifferIn (fun rawKey => ¬ ∃ name rest,
        IsKey (headOf settings param) rawKey name rest) first second →
      filters settings first param = filters settings second param := by
  refine ⟨fun rawKey => ⟨?_, ?_⟩, fun rawKey name rest h => ?_, fun first second h => ?_,
    fun first second h => ?_⟩
  · rintro ⟨name, rest, hkey⟩
    refine ⟨.null, ?_⟩
    rw [filters_singleton, filters_nil]
    exact (hkey.takes {} .null).andThen_result_ne
  · rintro ⟨raw, hraw⟩
    by_contra hkey
    rw [filters_singleton, readOne_of_not_isKey hkey] at hraw
    exact hraw rfl
  · exact ⟨fun other more h' => h.unique h', h.takes⟩
  · have hcollect := result_collect_congr h (fun _ => result_readOne_of_not_isHeeded) {}
    rw [filters_eq, filters_eq]
    show (_ >>= _ : Outcome _).result = (_ >>= _ : Outcome _).result
    rw [Outcome.result_bind, Outcome.result_bind, hcollect]
  · rw [filters_eq, filters_eq, collect_congr h (fun _ => readOne_of_not_isKey) {}]

def scattered : Mapping Value :=
  [("filter[a][x]\n", .text "1"), ("filter[a][b][c][d]", .text "2"), ("filter[a]]", .text "3"),
    ("filter[][a]", .text "4"), ("page", .text "5")]

theorem filters_heedsKeys_scattered :
    IsKey (headOf (.ofProject .null) none) "filter[a][x]\n" "a" ["x"] ∧
    (filters (.ofProject .null) scattered none).result =
      (filters (.ofProject .null) [("filter[a][x]\n", .text "1")] none).result ∧
    filters (.ofProject .null) [("page", .text "5")] none = pure [] := by
  obtain ⟨halone, huses, hresult, hall⟩ := filters_heedsKeys (.ofProject .null) none
  have hhead : (headOf (.ofProject .null) none).asText? = some "filter" := rfl
  have hkey : IsKey (headOf (.ofProject .null) none) "filter[a][x]\n" "a" ["x"] :=
    isKey_iff.2 ⟨"filter", by decide, hhead, by decide⟩
  have hnot {rawKey : String} (h : read? rawKey = none) :
      ¬ ∃ name rest, IsKey (headOf (.ofProject .null) none) rawKey name rest := by
    rintro ⟨name, rest, hkey⟩
    obtain ⟨text, hread, _⟩ := isKey_iff.1 hkey
    rw [h] at hread
    cases hread
  have hpassed {rawKey : String} (h : read? rawKey = none) :
      ¬ IsHeeded (headOf (.ofProject .null) none) rawKey := by
    rintro ⟨name, rest, hkey, _⟩
    exact hnot h ⟨name, rest, hkey⟩
  have hunknown : ¬ IsHeeded (headOf (.ofProject .null) none) "filter[a][b][c][d]" := by
    rintro ⟨name, rest, hkey, hform⟩
    have hlong : IsKey (headOf (.ofProject .null) none) "filter[a][b][c][d]" "a" ["b", "c", "d"] :=
      isKey_iff.2 ⟨"filter", by decide, hhead, by decide⟩
    obtain ⟨rfl, rfl⟩ := (huses _ _ _ hlong).1 _ _ hkey
    cases hform
  have hnameless : ¬ IsHeeded (headOf (.ofProject .null) none) "filter[][a]" := by
    rintro ⟨name, rest, hkey, _⟩
    obtain ⟨text, hread, _, hname⟩ := isKey_iff.1 hkey
    have hparts : read? "filter[][a]" = some ⟨"filter", ["", "a"]⟩ := by decide
    rw [hparts] at hread
    simp only [Option.some.injEq, BracketKey.mk.injEq, List.cons.injEq] at hread
    exact hname hread.2.1.symm
  refine ⟨hkey, hresult _ _ ?_, hall _ _ (.left (hnot (by decide)) .nil)⟩
  exact .both _ (.left hunknown (.left (hpassed (by decide)) (.left hnameless
    (.left (hpassed (by decide)) .nil))))

/-- An empty head is not the wanted one, although no name is written as an empty head and texts in
brackets: the head of the settings takes its place. -/
theorem filters_emptyHead :
    (filters (.ofProject .null) [("filter[a]", .text "x")] (some "")).result =
      .ok [("a", .text "x")] ∧
    (filters (.ofProject .null) [] (some "")).result = .ok [] ∧
    ¬ ∃ name rest, IsKey (.text "") "filter[a]" name rest := by
  refine ⟨rfl, rfl, ?_⟩
  rintro ⟨name, rest, _, text, hhead, hkey, _⟩
  obtain rfl : "" = text := Option.some.inj hhead
  exact hkey.head_ne rfl

end RowFilter.Parameters
