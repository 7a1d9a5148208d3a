import RowFilter.Proofs.RelationTables

/-!
Relations from either side. A reference or links of one model are a relation of this model and, if
the other side may see it, one of the model that they lead to. The two are read off different names
and joined by different columns, but link the same rows: the one leads from a row to another exactly
if the other leads back. For links this takes pairs that hold the keys of both sides. A relation
joins by keys, and if pairs hold another field that tells rows apart, it does not see them.
-/

namespace RowFilter

namespace Schema

variable {schema : Schema} {m target through : Model} {f near far : Field} {r : Relation}
  {db : Database} {row other : Row}

def linkOn (schema : Schema) (m : Model) (r : Relation) : Except Fault Link := do
  let (related, join) ← schema.openLink r
  return ⟨related, join, ← schema.outerColumn m r.outerKey⟩

/-- Whether the pairs of a field, if it has any, hold the keys of the rows on both sides. -/
def PairsKeys (schema : Schema) (m target : Model) (f : Field) : Prop :=
  ∀ through near far, schema.pairing? m target f = some (through, near, far) →
    schema.referred? m near = schema.keyField? m ∧
      schema.referred? target far = schema.keyField? target

theorem linkOn_eq_ok {related : Model} {join outer : ColumnRef}
    (hopen : schema.openLink r = .ok (related, join))
    (houter : schema.outerColumn m r.outerKey = .ok outer) :
    schema.linkOn m r = .ok ⟨related, join, outer⟩ := by
  rw [linkOn, hopen]
  show (schema.outerColumn m r.outerKey >>= _) = _
  rw [houter]
  rfl

theorem mem_referencesTo_of_pairing? (h : schema.pairing? m target f = some (through, near, far)) :
    (∃ name, schema.target? m name = some through) ∧ near ∈ schema.referencesTo through m ∧
      far ∈ schema.referencesTo through target := by
  unfold pairing? at h
  split at h
  · obtain ⟨found, hfound, h⟩ := Option.bind_eq_some_iff.1 h
    obtain ⟨left, hleft, h⟩ := Option.bind_eq_some_iff.1 h
    obtain ⟨right, hright, h⟩ := Option.bind_eq_some_iff.1 h
    cases h
    exact ⟨⟨_, hfound⟩, List.mem_of_head? hleft, List.mem_of_find?_eq_some hright⟩
  · cases h

theorem Standalone.linked?_of_mem_referencesTo (h : schema.Standalone) (hm : m ∈ schema.models)
    (hthrough : through ∈ schema.models) (hf : f ∈ schema.referencesTo through m) :
    schema.linked? through f = some m := by
  have hkind := (List.mem_filter.1 hf).2
  split at hkind
  · next name _ _ hreference =>
    have hname : f.target? = some name := by rw [Field.target?, hreference]
    rw [linked?, hname, Option.bind_some]
    cases hfound : schema.target? through name with
    | none => simp [hfound] at hkind
    | some found =>
        have hconcrete : found.concrete = m.concrete := by simpa [hfound] using hkind
        rw [h.eq_of_concrete hm (mem_of_target? hthrough hfound) hconcrete]
  · cases hkind

theorem linked_comm (hlinked : schema.linked? m f = some target) :
    schema.Linked db (.forward m f) row other ↔
      schema.Linked db (.reverse m f target) other row := by
  cases hlinks : f.isLinks with
  -- either side of a reference says that the one row refers to the other
  | false => rw [linked_forward_iff_refers hlinks, linked_reverse_iff_refers hlinks]
  | true =>
      simp only [Linked, hlinks, if_true, hlinked, Option.some.injEq, exists_and_left,
        exists_eq_left', Pairs]
      constructor
      · rintro ⟨through, near, far, hpairing, pair, hpair, hnear, hfar⟩
        exact ⟨through, far, near, hpairing, pair, hpair, hfar, hnear⟩
      · rintro ⟨through, far, near, hpairing, pair, hpair, hfar, hnear⟩
        exact ⟨through, near, far, hpairing, pair, hpair, hnear, hfar⟩

section Standalone

variable (h : schema.Standalone) (hm : m ∈ schema.models)

include h hm

theorem Standalone.refersByKey (hthrough : through ∈ schema.models)
    (hf : f ∈ schema.referencesTo through m)
    (hkey : schema.referred? m f = schema.keyField? m) (row : Row) :
    schema.RefersByKey m through f row := by
  intro hop target hhop
  obtain ⟨hlinked, key, hreferred, rfl⟩ := hopTo?_eq_some_iff.1 hhop
  obtain rfl : m = target :=
    Option.some.inj ((h.linked?_of_mem_referencesTo hm hthrough hf).symm.trans hlinked)
  exact ⟨key, hkey.symm.trans hreferred, rfl⟩

/-- Pairs that hold the keys of both sides refer to the rows of either side by their keys. -/
theorem Standalone.pairsByKey (hlinked : schema.linked? m f = some target)
    (hkeys : schema.PairsKeys m target f) (row : Row) :
    schema.PairsByKey m (.forward m f) row ∧
      schema.PairsByKey target (.reverse m f target) row := by
  have htarget := mem_of_linked? hm hlinked
  constructor
  · intro seen through near far hseen hpairing
    obtain rfl := Option.some.inj (hlinked.symm.trans hseen)
    obtain ⟨⟨_, hthrough⟩, hnear, _⟩ := mem_referencesTo_of_pairing? hpairing
    exact h.refersByKey hm (mem_of_target? hm hthrough) hnear (hkeys through near far hpairing).1
      row
  · intro through near far hpairing
    obtain ⟨⟨_, hthrough⟩, _, hfar⟩ := mem_referencesTo_of_pairing? hpairing
    exact h.refersByKey htarget (mem_of_target? hm hthrough) hfar
      (hkeys through far near hpairing).2 row

/-- The relations of a field on either side lead back and forth between the same rows. -/
theorem Standalone.exists_links {s : Relation} (hlinked : schema.linked? m f = some target)
    (hr : schema.Makes m (.forward m f) r) (hs : schema.Makes target (.reverse m f target) s)
    (hkeys : schema.PairsKeys m target f) : ∃ there back, schema.linkOn m r = .ok there ∧
      schema.linkOn target s = .ok back ∧ there.related = target ∧ back.related = m ∧
        ∀ db row other, there.leads db row other = true ↔ back.leads db other row = true := by
  have htarget := mem_of_linked? hm hlinked
  obtain ⟨_, _, _, _, hf, _, _⟩ := mem_of_reverse_mem_members hs.1
  have hkeyed := Bool.or_eq_true_iff.2 (h.isKeyed hm hf)
  obtain ⟨related, join, outer, hopen, houter⟩ :=
    exists_openLink h.coherent hm hr.1 hkeyed hr.2
  obtain ⟨source, joinBack, outerBack, hopenBack, houterBack⟩ :=
    exists_openLink h.coherent htarget hs.1 hkeyed hs.2
  obtain ⟨_, _, _, hleads⟩ := leads_iff_linked h.coherent hm hr.1 hr.2 hopen houter
  obtain ⟨_, _, _, hleadsBack⟩ :=
    leads_iff_linked h.coherent htarget hs.1 hs.2 hopenBack houterBack
  refine ⟨_, _, linkOn_eq_ok hopen houter, linkOn_eq_ok hopenBack houterBack, ?_, ?_,
    fun db row other => ?_⟩
  · obtain ⟨seen, hseen, hrelation⟩ := forwardRelation_of_relationOf hr.2
    obtain rfl := Option.some.inj (hlinked.symm.trans hseen)
    have hfind := (openLink_eq_ok_iff.1 hopen).1
    rw [(of_forwardRelation hrelation).2.1, h.coherent.find_key target htarget] at hfind
    exact (Option.some.inj hfind).symm
  · have hfind := (openLink_eq_ok_iff.1 hopenBack).1
    rw [(reverse_of_relationOf hs.2).1, h.coherent.find_key m hm] at hfind
    exact (Option.some.inj hfind).symm
  · have hrow := (h.pairsByKey hm hlinked hkeys row).1
    have hother := (h.pairsByKey hm hlinked hkeys other).2
    rw [hleads db row other hrow, hleadsBack db other row hother, linked_comm hlinked]

/-- The relations of a model are those of its own references and links, under their names and but
for links that the other side must not see, and those of visible references and links of other
models, under their accessors, and no others. A field that is seen from both sides is of dual kinds
there, and its relations lead back and forth between the same rows, whatever a database holds. -/
theorem Standalone.relationTable_dual :
    ∃ table, (schema.relationTable m).result = .ok table ∧
      (∀ f, IsForward m f → ∃ r target, Mapping.find? f.name table = some r ∧
        schema.linked? m f = some target ∧ r.related = target.key ∧ r.kind = f.relationKind) ∧
      (∀ source f, schema.IsBackward m source f →
        ∃ r, Mapping.find? (source.accessor f) table = some r ∧ r.related = source.key ∧
          r.kind = f.relationKind.dual) ∧
      (∀ name r, Mapping.find? name table = some r →
        (∃ f, IsForward m f ∧ name = f.name) ∨
          ∃ source f, schema.IsBackward m source f ∧ name = source.accessor f) ∧
      ∀ f target others, IsForward m f → schema.IsBackward target m f →
        (schema.relationTable target).result = .ok others →
          ∃ r s, Mapping.find? f.name table = some r ∧
            Mapping.find? (m.accessor f) others = some s ∧ s.kind = r.kind.dual ∧
              (schema.PairsKeys m target f → ∃ there back, schema.linkOn m r = .ok there ∧
                schema.linkOn target s = .ok back ∧ there.related = target ∧ back.related = m ∧
                  ∀ db row other,
                    there.leads db row other = true ↔ back.leads db other row = true) := by
  obtain ⟨table, htable, hforward, hback, honly⟩ := h.relationTable_complete hm
  refine ⟨table, htable, fun f hf => ?_, fun source f hf => ?_, honly,
    fun f target others hown hseen hothers => ?_⟩
  · obtain ⟨r, target, hr, _, hlinked, hrelated, hkind⟩ := hforward f hf
    exact ⟨r, target, hr, hlinked, hrelated, hkind⟩
  · obtain ⟨r, hr, _, hrelated, hkind⟩ := hback source f hf
    exact ⟨r, hr, hrelated, hkind⟩
  · have htarget := mem_of_linked? hm hseen.2.2.1
    obtain ⟨others', hothers', _, hback', _⟩ := h.relationTable_complete htarget
    obtain rfl := Except.ok.inj (hothers.symm.trans hothers')
    obtain ⟨r, _, hr, hmakes, _, _, hkind⟩ := hforward f hown
    obtain ⟨s, hs, hmakesBack, _, hkindBack⟩ := hback' m f hseen
    exact ⟨r, s, hr, hs, hkind ▸ hkindBack, h.exists_links hm hseen.2.2.1 hmakes hmakesBack⟩

end Standalone

end Schema

namespace Stock

theorem standalone {held : Option String} (h : held ∈ [none, some "code"]) :
    (schema held).Standalone := by
  have hcoherent := coherent h
  obtain rfl | rfl : held = none ∨ held = some "code" := by simpa using h
  all_goals
    refine ⟨hcoherent, ?_, ?_, ?_, ?_, ?_⟩
    all_goals decide +kernel

theorem isForward_stores : Schema.IsForward item stores :=
  ⟨by decide +kernel, by decide +kernel, by decide +kernel⟩

theorem isBackward_stores (held : Option String) (h : held ∈ [none, some "code"]) :
    (schema held).IsBackward store item stores := by
  obtain rfl | rfl : held = none ∨ held = some "code" := by simpa using h
  all_goals exact ⟨by decide +kernel, by decide +kernel, by decide +kernel, by decide +kernel⟩

theorem pairsKeys_stores : (schema none).PairsKeys item store stores := by
  have hpairing : (schema none).pairing? item store stores =
      some (listing none, (listing none).fields[1], (listing none).fields[2]) := by
    decide +kernel
  intro through near far h
  obtain ⟨rfl, rfl, rfl⟩ := by simpa using hpairing.symm.trans h
  exact ⟨by decide +kernel, by decide +kernel⟩

theorem not_leads_stores : (schema (some "code")).Standalone ∧
    Schema.IsForward item stores ∧ (schema (some "code")).IsBackward store item stores ∧
    ∃ table others there back, ((schema (some "code")).relationTable item).result = .ok table ∧
      ((schema (some "code")).relationTable store).result = .ok others ∧
      Mapping.find? "stores" table = some toStores ∧ Mapping.find? "items" others = some toItems ∧
      (schema (some "code")).linkOn item toStores = .ok there ∧
      (schema (some "code")).linkOn store toItems = .ok back ∧
      there.leads shelf [("id", .int 1), ("code", .text "ax")] [("id", .int 2)] = false ∧
      back.leads shelf [("id", .int 2)] [("id", .int 1), ("code", .text "ax")] = true := by
  have hforth : ((schema (some "code")).relationTable item).result.toOption.bind
      (Mapping.find? "stores") = some toStores := by decide +kernel
  have hback : ((schema (some "code")).relationTable store).result.toOption.bind
      (Mapping.find? "items") = some toItems := by decide +kernel
  have hthere : ((schema (some "code")).linkOn item toStores).toOption.map
      (·.leads shelf [("id", .int 1), ("code", .text "ax")] [("id", .int 2)]) = some false := by
    decide +kernel
  have hhere : ((schema (some "code")).linkOn store toItems).toOption.map
      (·.leads shelf [("id", .int 2)] [("id", .int 1), ("code", .text "ax")]) = some true := by
    decide +kernel
  obtain ⟨table, htable, hforth⟩ := Option.bind_eq_some_iff.1 hforth
  obtain ⟨others, hothers, hback⟩ := Option.bind_eq_some_iff.1 hback
  obtain ⟨there, hthere, hleads⟩ := Option.map_eq_some_iff.1 hthere
  obtain ⟨back, hhere, hleadsBack⟩ := Option.map_eq_some_iff.1 hhere
  exact ⟨standalone (by simp), isForward_stores, isBackward_stores _ (by simp), table, others,
    there, back, eq_ok_of_toOption htable, eq_ok_of_toOption hothers, hforth, hback,
    eq_ok_of_toOption hthere, eq_ok_of_toOption hhere, hleads, hleadsBack⟩

end Stock

open Stock in
theorem Schema.Standalone.relationTable_dual_stock :
    (schema none).Standalone ∧ item ∈ (schema none).models ∧
      ∃ table r s there back, ((schema none).relationTable item).result = .ok table ∧
        Mapping.find? "stores" table = some r ∧ s.kind = r.kind.dual ∧
        (schema none).linkOn item r = .ok there ∧ (schema none).linkOn store s = .ok back ∧
          ∀ db row other, there.leads db row other = true ↔ back.leads db other row = true := by
  have hstandalone : (schema none).Standalone := standalone (by simp)
  have hitem : item ∈ (schema none).models := by decide +kernel
  have hstore : store ∈ (schema none).models := by decide +kernel
  obtain ⟨table, htable, _, _, _, hdual⟩ := hstandalone.relationTable_dual hitem
  obtain ⟨others, hothers, _⟩ := hstandalone.exists_relationTable hstore
  obtain ⟨r, s, hr, _, hkind, hlinks⟩ :=
    hdual stores store others isForward_stores (isBackward_stores none (by simp)) hothers
  obtain ⟨there, back, hthere, hback, _, _, hleads⟩ := hlinks pairsKeys_stores
  exact ⟨hstandalone, hitem, table, r, s, there, back, htable, hr, hkind, hthere, hback, hleads⟩

end RowFilter
