import Mathlib.Data.List.Nodup
import RowFilter.Proofs.Coherence
import RowFilter.Proofs.Narrowing
import RowFilter.Schema.Assembly

/-!
Assembled schemas. A draft builds on itself, and on the model whose table holds its rows: on itself
again, or on the concrete model that a proxy stands for, to which it is joined when the proxy's
bases are gone through. This is so of every draft of an assembly however many are added, and so an
assembled schema is coherent if its models are told apart and the host finds nothing wrong with
their keys, names and links.
-/

namespace RowFilter

/-- What every step of a run preserves, the run preserves. -/
theorem Except.foldlM_induction {α β : Type} {f : β → α → Except Fault β} {motive : β → Prop}
    {xs : List α} {start last : β} (h : xs.foldlM f start = .ok last) (hstart : motive start)
    (step : ∀ b, ∀ x ∈ xs, ∀ next, f b x = .ok next → motive b → motive next) : motive last := by
  induction xs generalizing start with
  | nil => exact Except.ok.inj h ▸ hstart
  | cons x xs ih =>
      rw [List.foldlM_cons] at h
      obtain ⟨next, hnext, h⟩ := Except.bind_eq_ok_iff.1 h
      refine ih h (step start x List.mem_cons_self next hnext hstart) fun b y hy => ?_
      exact step b y (List.mem_cons_of_mem x hy)

/-- What one step of a run makes so, and every later one preserves, is so in the end. -/
theorem Except.foldlM_of_mem {α β : Type} {f : β → α → Except Fault β} {motive : β → Prop}
    {xs : List α} {start last : β} {x : α} (h : xs.foldlM f start = .ok last) (hx : x ∈ xs)
    (make : ∀ b next, f b x = .ok next → motive next)
    (step : ∀ b, ∀ y ∈ xs, ∀ next, f b y = .ok next → motive b → motive next) : motive last := by
  obtain ⟨before, after, rfl⟩ := List.append_of_mem hx
  rw [List.foldlM_append] at h
  obtain ⟨middle, _, h⟩ := Except.bind_eq_ok_iff.1 h
  rw [List.foldlM_cons] at h
  obtain ⟨next, hnext, h⟩ := Except.bind_eq_ok_iff.1 h
  refine Except.foldlM_induction h (make middle next hnext) fun b y hy => step b y ?_
  exact List.mem_append_right _ (List.mem_cons_of_mem x hy)

namespace Mapping

variable {α : Type} {key other : String} {value : α} {m entries : Mapping α}

theorem mem_keys_insert : other ∈ keys (insert key value m) ↔ other ∈ keys m ∨ other = key := by
  rw [keys_insert]
  split
  · next h => exact ⟨.inl, fun hother => hother.elim id fun heq => heq ▸ h⟩
  · rw [List.mem_append, List.mem_singleton]

theorem mem_keys_update (h : key ∈ keys m) : key ∈ keys (update m entries) := by
  induction entries generalizing m with
  | nil => exact h
  | cons entry rest ih => exact ih (mem_keys_insert.2 (.inl h))

end Mapping

/-! ### What a model has of those it builds on -/

namespace Parts

variable {d : ModelDef} {parts next : Parts} {base : Draft}

theorem parents_copyFields (h : parts.copyFields d base = .ok next) :
    next.parents = parts.parents := by
  refine Except.foldlM_induction (motive := fun found => found.parents = parts.parents) h rfl ?_
  intro found field _ next hnext hfound
  split at hnext
  · exact Except.ok.inj hnext ▸ hfound
  · cases hnames : d.checkNames field.2 with
    | error fault =>
        rw [hnames] at hnext
        cases hnext
    | ok _ =>
        rw [hnames] at hnext
        exact Except.ok.inj hnext ▸ hfound

theorem parents_copyGeneric (h : parts.copyGeneric d base = .ok next) :
    next.parents = parts.parents := by
  refine Except.foldlM_induction (motive := fun found => found.parents = parts.parents) h rfl ?_
  intro found field _ next hnext hfound
  split_ifs at hnext
  all_goals exact Except.ok.inj hnext ▸ hfound

end Parts

namespace Assembly

variable {a b : Assembly} {d : ModelDef} {bases : List Draft} {order : List String}
  {parts next : Parts} {base other made stands : Draft} {given : Int}

theorem exists_parents_join (h : a.join d bases order parts base = .ok next) :
    ∃ link, next.parents = Mapping.insert base.model.key link parts.parents := by
  unfold join at h
  dsimp only at h
  split at h
  · obtain rfl := Except.ok.inj h
    exact ⟨_, rfl⟩
  · split_ifs at h
    all_goals
      obtain rfl := Except.ok.inj h
      exact ⟨_, rfl⟩

/-- Parents are kept, and a concrete base brings the model whose table holds its rows. -/
theorem mem_keys_build (h : a.build d bases order parts other = .ok next) :
    (∀ key ∈ Mapping.keys parts.parents, key ∈ Mapping.keys next.parents) ∧
      (other ∈ bases → other.isAbstract = false →
        (a.concrete other).model.key ∈ Mapping.keys next.parents) := by
  unfold build at h
  split_ifs at h with hdirect habstract
  · -- it is no base itself, so only what it has is noted
    obtain rfl := Except.ok.inj h
    refine ⟨fun key hkey => hkey, fun hother _ => ?_⟩
    simpa using List.all_eq_true.1 hdirect other hother
  · obtain ⟨copied, hcopied, h⟩ := Except.bind_eq_ok_iff.1 h
    have hparents := Parts.parents_copyGeneric h
    refine ⟨fun key hkey => ?_, fun _ hconcrete => absurd habstract (by simp [hconcrete])⟩
    rw [hparents]
    exact Mapping.mem_keys_update (Parts.parents_copyFields hcopied ▸ hkey)
  · dsimp only at h
    split at h
    · cases h
    · obtain ⟨joined, hjoined, h⟩ := Except.bind_eq_ok_iff.1 h
      obtain ⟨link, hlink⟩ := exists_parents_join hjoined
      rw [Parts.parents_copyGeneric h, hlink]
      exact ⟨fun key hkey => Mapping.mem_keys_insert.2 (.inl hkey),
        fun _ _ => Mapping.mem_keys_insert.2 (.inr rfl)⟩

/-! ### What a definition makes -/

theorem mem_of_base? {app name : String} (h : a.base? app name = some base) :
    base ∈ a.drafts := by
  unfold base? at h
  split at h
  · exact List.mem_of_find?_eq_some h
  · cases hsame : a.drafts.find? fun e => e.model.app == app && e.model.name == name with
    | some e =>
        rw [hsame] at h
        exact Option.some.inj h ▸ List.mem_of_find?_eq_some hsame
    | none =>
        rw [hsame] at h
        exact List.mem_of_find?_eq_some h

theorem mem_precedence (h : a.precedence bases = .ok order) (hbase : base ∈ bases) :
    base.model.key ∈ order := by
  unfold precedence at h
  split at h
  · cases h
  · have hne : bases.isEmpty = false := by
      cases bases with
      | nil => cases hbase
      | cons first rest => rfl
    dsimp only at h
    rw [hne] at h
    cases hmerged : mergeOrders (bases.map (·.order) ++ [bases.map (·.model.key)]) with
    | error blocked =>
        rw [if_neg Bool.false_ne_true, hmerged] at h
        cases h
    | ok merged =>
        rw [if_neg Bool.false_ne_true, hmerged] at h
        obtain rfl : merged = order := Except.ok.inj h
        refine mem_mergeOrders hmerged (List.mem_append_right _ (List.mem_singleton.2 rfl)) ?_
        exact List.mem_map_of_mem hbase

theorem exists_of_standsFor {name : String} (h : a.standsFor name bases = .ok stands) :
    ∃ base ∈ bases, base.isAbstract = false ∧ stands = a.concrete base := by
  unfold standsFor at h
  obtain ⟨found, hfound, h⟩ := Except.bind_eq_ok_iff.1 h
  have hmem : ∀ base, found = some base → base ∈ bases ∧ base.isAbstract = false := by
    refine Except.foldlM_induction
      (motive := fun found => ∀ base, found = some base → base ∈ bases ∧ base.isAbstract = false)
      hfound (by simp) ?_
    intro found base hbase next hnext hold
    split_ifs at hnext with habstract
    · exact Except.ok.inj hnext ▸ hold
    · split at hnext
      · obtain rfl := Except.ok.inj hnext
        intro other hother
        obtain rfl := Option.some.inj hother
        exact ⟨hbase, by simpa using habstract⟩
      · split_ifs at hnext
        exact Except.ok.inj hnext ▸ hold
  cases found with
  | none => cases h
  | some base =>
      obtain ⟨hbase, hconcrete⟩ := hmem base rfl
      exact ⟨base, hbase, hconcrete, (Except.ok.inj h).symm⟩

/-- A proxy stands for the concrete model of one of its bases. -/
theorem exists_of_standsFor? {stands? : Option Draft} (hproxy : d.isProxy = true)
    (h : a.standsFor? d bases = .ok stands?) :
    ∃ base ∈ bases, base.isAbstract = false ∧ stands? = some (a.concrete base) := by
  rw [standsFor?, if_pos hproxy] at h
  cases hfound : a.standsFor d.name bases with
  | error fault =>
      rw [hfound] at h
      cases h
  | ok stands =>
      rw [hfound] at h
      obtain ⟨base, hbase, hconcrete, rfl⟩ := exists_of_standsFor hfound
      exact ⟨base, hbase, hconcrete, (Except.ok.inj h).symm⟩

theorem exists_of_draft (h : a.draft d = .ok (made, given)) : ∃ order stands? fields count parts,
    a.precedence (d.bases.filterMap (a.base? d.app)) = .ok order ∧
      a.standsFor? d (d.bases.filterMap (a.base? d.app)) = .ok stands? ∧
      (order.filterMap a.draft?).foldlM (a.build d (d.bases.filterMap (a.base? d.app)) order)
        { fields, given := count } = .ok parts ∧ made = a.finish d order stands? parts := by
  obtain ⟨order, horder, h⟩ := Except.bind_eq_ok_iff.1 h
  obtain ⟨_, _, h⟩ := Except.bind_eq_ok_iff.1 h
  obtain ⟨stands?, hstands, h⟩ := Except.bind_eq_ok_iff.1 h
  obtain ⟨parts, hparts, h⟩ := Except.bind_eq_ok_iff.1 h
  refine ⟨order, stands?, _, _, parts, horder, hstands, hparts, ?_⟩
  dsimp only at h
  split_ifs at h
  · cases h
  · exact (Prod.mk.inj (Except.ok.inj h)).1.symm

def Distinct (a : Assembly) : Prop :=
  (a.drafts.map (·.model.key)).Nodup

theorem Distinct.draft? (hkeys : a.Distinct) (hmade : made ∈ a.drafts) :
    a.draft? made.model.key = some made := by
  cases hfound : a.draft? made.model.key with
  | none => simpa using List.find?_eq_none.1 hfound made hmade
  | some other =>
      have hkey : other.model.key = made.model.key := by
        simpa using List.find?_some hfound
      have hother : other ∈ a.drafts := List.mem_of_find?_eq_some hfound
      exact congrArg some (List.inj_on_of_nodup_map hkeys hother hmade hkey)

end Assembly

/-- Whether a draft builds on itself and, if it is not abstract, on the model whose table holds its
rows: itself, or one that is among some drafts and not abstract either. -/
structure Draft.IsSound (drafts : List Draft) (made : Draft) : Prop where
  key_mem : made.model.key ∈ made.model.lineage
  concrete_key : made.model.isProxy = false → made.model.concrete = made.model.key
  concrete_mem : made.isAbstract = false → made.model.concrete ∈ made.model.lineage
  concrete : made.isAbstract = false → made.model.concrete = made.model.key ∨
    ∃ held ∈ drafts, held.isAbstract = false ∧ held.model.key = made.model.concrete

namespace Draft.IsSound

variable {drafts more : List Draft} {made : Draft}

theorem mono (h : made.IsSound drafts) (hmore : drafts ⊆ more) : made.IsSound more := by
  refine ⟨h.key_mem, h.concrete_key, h.concrete_mem, fun hnot => (h.concrete hnot).imp_right ?_⟩
  rintro ⟨held, hheld, hkeys⟩
  exact ⟨held, hmore hheld, hkeys⟩

theorem namePairs (h : made.IsSound drafts) : (Assembly.namePairs made).1.IsSound drafts :=
  ⟨h.key_mem, h.concrete_key, h.concrete_mem, h.concrete⟩

theorem exists_concrete (h : made.IsSound drafts) (hmade : made ∈ drafts)
    (hnot : made.isAbstract = false) :
    ∃ held ∈ drafts, held.isAbstract = false ∧ held.model.key = made.model.concrete := by
  rcases h.concrete hnot with hself | hheld
  · exact ⟨made, hmade, hnot, hself.symm⟩
  · exact hheld

end Draft.IsSound

namespace Assembly

variable {a b : Assembly} {d : ModelDef} {bases : List Draft} {order : List String}
  {parts next : Parts} {base other made stands : Draft} {given : Int}

def IsSound (a : Assembly) : Prop :=
  a.Distinct → ∀ made ∈ a.drafts, made.IsSound a.drafts

/-- What a proxy stands for is a concrete model that the proxy builds on. -/
theorem exists_of_isProxy (ha : a.IsSound) (hkeys : a.Distinct) (hproxy : d.isProxy = true)
    (h : a.draft d = .ok (made, given)) : made.model.concrete ∈ made.model.lineage ∧
      ∃ held ∈ a.drafts, held.isAbstract = false ∧ held.model.key = made.model.concrete := by
  obtain ⟨order, stands?, fields, count, parts, horder, hstands, hparts, rfl⟩ := exists_of_draft h
  obtain ⟨base, hbase, hconcrete, rfl⟩ := exists_of_standsFor? hproxy hstands
  obtain ⟨name, _, hname⟩ := List.mem_filterMap.1 hbase
  have hmem : base ∈ a.drafts := mem_of_base? hname
  obtain ⟨held, hheld, hnot, hkey⟩ := (ha hkeys base hmem).exists_concrete hmem hconcrete
  have hfound : a.draft? held.model.key = some held := hkeys.draft? hheld
  have hstands : a.concrete base = held := by
    rw [concrete, ← hkey, hfound]
    rfl
  -- the base is gone through, and brings what it stands for as a parent
  have hparent : (a.concrete base).model.key ∈ Mapping.keys parts.parents := by
    refine Except.foldlM_of_mem
      (motive := fun found => (a.concrete base).model.key ∈ Mapping.keys found.parents) hparts
      (List.mem_filterMap.2 ⟨_, mem_precedence horder hbase, hkeys.draft? hmem⟩) ?_ ?_
    · exact fun _ _ hnext => (mem_keys_build hnext).2 hbase hconcrete
    · exact fun _ _ _ _ hnext hold => (mem_keys_build hnext).1 _ hold
  rw [hstands] at hparent ⊢
  refine ⟨List.mem_append_left _ (List.mem_eraseDups.2 ?_), held, hheld, hnot, rfl⟩
  obtain ⟨⟨key, link⟩, hentry, rfl⟩ := List.mem_map.1 hparent
  refine List.mem_flatMap.2 ⟨_, hentry, ?_⟩
  dsimp only at hfound ⊢
  rw [hfound]
  exact (ha hkeys held hheld).key_mem

theorem isSound_of_draft (ha : d.isProxy = true → a.IsSound ∧ a.Distinct)
    (h : a.draft d = .ok (made, given)) : made.IsSound a.drafts := by
  obtain ⟨order, stands?, fields, count, parts, _, hstands, _, hmade⟩ := exists_of_draft h
  have hself : made.model.key ∈ made.model.lineage := by
    rw [hmade]
    exact List.mem_append_right _ (List.mem_singleton.2 rfl)
  have hproxy : made.model.isProxy = d.isProxy := by
    rw [hmade]
    rfl
  cases hcase : d.isProxy with
  | false =>
      have hown : made.model.concrete = made.model.key := by
        rw [standsFor?, hcase] at hstands
        obtain rfl : none = stands? := Except.ok.inj hstands
        rw [hmade]
        rfl
      exact ⟨hself, fun _ => hown, fun _ => hown ▸ hself, fun _ => .inl hown⟩
  | true =>
      obtain ⟨hsound, hkeys⟩ := ha hcase
      obtain ⟨hlineage, hheld⟩ := exists_of_isProxy hsound hkeys hcase h
      refine ⟨hself, fun hnot => ?_, fun _ => hlineage, fun _ => .inr hheld⟩
      rw [hproxy, hcase] at hnot
      cases hnot

/-! ### What an assembly makes -/

theorem Distinct.of_prefix (h : b.Distinct) (hdrafts : a.drafts <+: b.drafts) : a.Distinct :=
  h.sublist (hdrafts.sublist.map _)

theorem IsSound.append (ha : a.IsSound) (hdrafts : b.drafts = a.drafts ++ [made])
    (hmade : b.Distinct → made.IsSound a.drafts) : b.IsSound := by
  intro hkeys e he
  have hgrown : a.drafts <+: b.drafts := hdrafts ▸ List.prefix_append _ _
  rw [hdrafts] at he
  rcases List.mem_append.1 he with he | he
  · exact (ha (hkeys.of_prefix hgrown) e he).mono hgrown.subset
  · obtain rfl := List.mem_singleton.1 he
    exact (hmade hkeys).mono hgrown.subset

theorem isProxy_of_mem_namePairs (h : d ∈ (namePairs made).2) : d.isProxy = false := by
  obtain ⟨f, _, hf⟩ := List.mem_filterMap.1 h
  split at hf
  · exact Option.some.inj hf ▸ rfl
  · cases hf

/-- One definition more leaves the drafts as they are and adds sound ones. -/
theorem isSound_add (h : a.add d = .ok b) :
    a.drafts <+: b.drafts ∧ (a.IsSound → b.IsSound) := by
  obtain ⟨⟨made, given⟩, hmade, h⟩ := Except.bind_eq_ok_iff.1 h
  dsimp only at h
  split_ifs at h
  · obtain rfl := Except.ok.inj h
    refine ⟨List.prefix_append _ _, fun ha => ha.append rfl fun hkeys => ?_⟩
    exact isSound_of_draft (fun _ => ⟨ha, hkeys.of_prefix (List.prefix_append _ _)⟩) hmade
  · obtain ⟨middle, hmiddle, h⟩ := Except.bind_eq_ok_iff.1 h
    -- the models for pairs come first
    have hpairs : a.drafts <+: middle.drafts ∧ (a.IsSound → middle.IsSound) := by
      refine Except.foldlM_induction
        (motive := fun found => a.drafts <+: found.drafts ∧ (a.IsSound → found.IsSound))
        hmiddle ⟨List.prefix_rfl, id⟩ ?_
      rintro found pairs hpairs next hnext ⟨hgrown, hsound⟩
      obtain ⟨⟨other, count⟩, hother, hnext⟩ := Except.bind_eq_ok_iff.1 hnext
      obtain rfl := Except.ok.inj hnext
      refine ⟨hgrown.trans (List.prefix_append _ _), fun ha => (hsound ha).append rfl fun _ => ?_⟩
      refine isSound_of_draft (fun hproxy => ?_) hother
      rw [isProxy_of_mem_namePairs hpairs] at hproxy
      cases hproxy
    obtain ⟨hgrown, hsound⟩ := hpairs
    split_ifs at h
    obtain rfl := Except.ok.inj h
    refine ⟨hgrown.trans (List.prefix_append _ _), fun ha => (hsound ha).append rfl fun hkeys => ?_⟩
    refine (Draft.IsSound.mono ?_ hgrown.subset).namePairs
    have hstart : a.Distinct := hkeys.of_prefix (hgrown.trans (List.prefix_append _ _))
    exact isSound_of_draft (fun _ => ⟨ha, hstart⟩) hmade

theorem isSound_of_defs {idType : String} {defs : List ModelDef}
    (h : defs.foldlM Assembly.add { idType } = .ok a) : a.IsSound := by
  refine Except.foldlM_induction (motive := IsSound) h ?_ fun _ _ _ _ hnext hold =>
    (isSound_add hnext).2 hold
  intro _ made hmade
  cases hmade

theorem mem_models_iff {m : Model} :
    m ∈ a.schema.models ↔ ∃ made ∈ a.drafts, made.isAbstract = false ∧ made.model = m := by
  simp [schema, and_assoc]

theorem Distinct.find? {m : Model} (hkeys : a.Distinct) (hm : m ∈ a.schema.models) :
    a.schema.find? m.key = some m := by
  have hmodels : (a.schema.models.map (·.key)).Nodup := by
    rw [schema, List.map_map]
    exact hkeys.sublist (List.filter_sublist.map _)
  cases hfound : a.schema.find? m.key with
  | none => simpa using List.find?_eq_none.1 hfound m hm
  | some other =>
      have hkey : other.key = m.key := by
        simpa using List.find?_some hfound
      have hother : other ∈ a.schema.models := List.mem_of_find?_eq_some hfound
      exact congrArg some (List.inj_on_of_nodup_map hmodels hother hm hkey)

end Assembly

namespace Schema

open Assembly

/-- What an assembly makes is coherent if its models are told apart and pass the checks. -/
theorem coherent_ofDefs {idType : String} {apps : List String} {defs : List ModelDef} {a : Assembly}
    (h : defs.foldlM Assembly.add { idType } = .ok a) (hkeys : a.Distinct)
    (hchecked : Schema.Checked { a.schema with apps }) :
    ∃ schema, ofDefs idType apps defs = .ok schema ∧ schema.Coherent := by
  have hsound := isSound_of_defs h hkeys
  have hfind {m : Model} (hm : m ∈ a.schema.models) :
      Schema.find? { a.schema with apps } m.key = some m := hkeys.find? hm
  refine ⟨{ a.schema with apps }, ?_, hchecked, fun m hm => hfind hm, fun m hm => ?_,
    fun m hm => ?_, fun m hm => ?_⟩
  · rw [ofDefs, h]
    rfl
  all_goals obtain ⟨made, hmade, hnot, rfl⟩ := mem_models_iff.1 hm
  · exact List.mem_filterMap.2 ⟨_, (hsound made hmade).key_mem, if_pos rfl⟩
  · obtain ⟨held, hheld, hreal, hkey⟩ := (hsound made hmade).exists_concrete hmade hnot
    have hfound := hkey ▸ hfind (mem_models_iff.2 ⟨held, hheld, hreal, rfl⟩)
    have hconcrete : Schema.concrete { a.schema with apps } made.model = held.model := by
      rw [Schema.concrete, hfound]
      rfl
    rw [hconcrete]
    refine List.mem_filterMap.2 ⟨_, (hsound made hmade).concrete_mem hnot, ?_⟩
    split
    · next hself => exact (hfind hm).symm.trans (hself ▸ hfound)
    · exact hfound
  · exact (hsound made hmade).concrete_key

end Schema

def Blog.defs : List ModelDef :=
  [{ app := "blog", name := "Author", table := some "authors"
     fields := [{ name := "name", kind := .column .text "CharField" }] },
    { app := "blog", name := "Post", table := some "posts"
      fields := [{ name := "author", kind := .reference false "Author" none false
                   isNullable := true }] }]

example : Schema.ofDefs "AutoField" ["blog"] Blog.defs = .ok Blog.schema := by cbv

end RowFilter
