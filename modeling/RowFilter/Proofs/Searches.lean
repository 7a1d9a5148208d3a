import Mathlib.Data.List.Forall2
import Mathlib.Tactic.Choose
import RowFilter.Proofs.Nulls

/-!
Searches. What is looked for stands for itself: a search finds the texts in which it occurs letter
by letter, the case of ASCII letters apart, and no character in it stands for others. So a text is
found by a search for itself, and what is found by a search for a text is found by a search for any
part of it. But a text is only searched up to its first null character.
-/

namespace RowFilter

/-- Whether two characters are the same, or one of them is a capital from A to Z and the other one
its small letter. -/
inductive SameLetter : Char → Char → Prop where
  | same (c : Char) : SameLetter c c
  | capital (c : Char) (h : c.isUpper = true) : SameLetter c c.toLower
  | small (c : Char) (h : c.isUpper = true) : SameLetter c.toLower c

def Occurs (part text : List Char) : Prop :=
  ∃ found, found <:+: text ∧ List.Forall₂ SameLetter found part

section Texts

variable {a b c : Char} {cs ds part more text : List Char}

theorem isUpper_iff : c.isUpper = true ↔ 65 ≤ c.toNat ∧ c.toNat ≤ 90 :=
  decide_eq_true_iff

theorem toNat_toLower (c : Char) :
    c.toLower.toNat = if c.isUpper then c.toNat + 32 else c.toNat := by
  by_cases h : c.isUpper = true
  · have hrange := isUpper_iff.1 h
    have hlower : c.toLower.val = c.val + 32 := congrArg Char.val (dif_pos (of_decide_eq_true h))
    rw [if_pos h, Char.toNat, hlower, UInt32.toNat_add]
    exact Nat.mod_eq_of_lt (by show c.toNat + 32 < _; omega)
  · have hlower : c.toLower = c := dif_neg fun hrange => h (decide_eq_true hrange)
    rw [if_neg h, hlower]

theorem toLower_eq_self (h : c.isUpper = false) : c.toLower = c := by
  rw [← Char.toNat_inj, toNat_toLower, h]
  rfl

theorem toLower_toLower (c : Char) : c.toLower.toLower = c.toLower := by
  refine toLower_eq_self (Bool.eq_false_iff.2 fun h => ?_)
  have hrange := isUpper_iff.1 h
  rw [toNat_toLower] at hrange
  split at hrange
  · next hupper =>
    have hcapital := isUpper_iff.1 hupper
    omega
  · next hupper => exact hupper (isUpper_iff.2 hrange)

theorem sameLetter_iff : SameLetter a b ↔ a.toLower = b.toLower := by
  constructor
  · rintro (_ | _ | _)
    · rfl
    · exact (toLower_toLower a).symm
    · exact toLower_toLower b
  · intro h
    cases ha : a.isUpper with
    | true =>
        cases hb : b.isUpper with
        | true =>
            have hcodes := congrArg Char.toNat h
            rw [toNat_toLower, toNat_toLower, ha, hb] at hcodes
            exact Char.toNat_inj.1 (Nat.add_right_cancel hcodes) ▸ .same a
        | false => exact (h.trans (toLower_eq_self hb)) ▸ .capital a ha
    | false =>
        cases hb : b.isUpper with
        | true => exact ((toLower_eq_self ha).symm.trans h) ▸ .small b hb
        | false => exact ((toLower_eq_self ha).symm.trans (h.trans (toLower_eq_self hb))) ▸ .same a

theorem forall₂_sameLetter_iff :
    List.Forall₂ SameLetter cs ds ↔ cs.map Char.toLower = ds.map Char.toLower := by
  have hsame : SameLetter = fun a b => a.toLower = b.toLower :=
    funext₂ fun _ _ => propext sameLetter_iff
  rw [← List.forall₂_eq_eq_eq, List.forall₂_map_left_iff, List.forall₂_map_right_iff, hsame]

theorem occurs_iff :
    Occurs part text ↔ part.map Char.toLower <:+: text.map Char.toLower := by
  rw [List.infix_map_iff]
  refine exists_congr fun found => and_congr_right fun _ => ?_
  exact forall₂_sameLetter_iff.trans eq_comm

theorem Occurs.refl (text : List Char) : Occurs text text :=
  occurs_iff.2 (List.infix_refl _)

theorem Occurs.of_part (h : Occurs part text) (hmore : more <:+: part) : Occurs more text :=
  occurs_iff.2 ((hmore.map Char.toLower).trans (occurs_iff.1 h))

theorem searchIn_iff_occurs {part text : String} (h : '\x00' ∉ part.toList) :
    searchIn part text = true ↔ Occurs part.toList (Pattern.beforeNull text.toList) := by
  rw [searchIn_iff h]
  refine exists_congr fun found => and_congr_right fun _ => ?_
  exact forall₂_sameLetter_iff.symm

theorem searchIn_self {text : String} (h : '\x00' ∉ text.toList) : searchIn text text = true := by
  rw [searchIn_iff_occurs h, Pattern.beforeNull_eq_self h]
  exact .refl _

theorem searchIn_of_part {part more text : String} (h : '\x00' ∉ part.toList)
    (hmore : more.toList <:+: part.toList) (hfound : searchIn part text = true) :
    searchIn more text = true := by
  have hfree : '\x00' ∉ more.toList := fun hnull => h (hmore.subset hnull)
  rw [searchIn_iff_occurs hfree]
  exact ((searchIn_iff_occurs h).1 hfound).of_part hmore

end Texts

/-! ### Searches of a column -/

namespace Schema.IsColumn

variable {schema : Schema} {m : Model} {path : String} {c : ColumnRef}
  (hc : schema.IsColumn m path c) (hdot : '.' ∉ path.toList) (href : c.isReference = false)

include hc hdot href

theorem clauseCondition_contains_text (v : String) :
    schema.clauseCondition m (Request.clause path ⟨.contains, .text v⟩) =
      .ok (.test c (.contains (some v))) := by
  have hclause : "contains" ∈ clauseLookups := by decide
  rw [schema.clauseCondition_contains m hdot, if_neg (by simp [Value.isNull]),
    hc.onColumn_eq hclause (Lookup.mem_known_of_not_isReference hclause href)]
  rfl

theorem clauseCondition_equal_text (htext : c.scalar = .text) (v : String) :
    schema.clauseCondition m (Request.clause path ⟨.equal, .text v⟩) =
      .ok (.test c (.compare .equal (.text v))) := by
  have hclause : "exact" ∈ clauseLookups := by decide
  have hread : c.readOperand false (.text v) = .ok (.text v) := by
    rw [ColumnRef.readOperand, htext]
    rfl
  have hasked : schema.clauseCondition m (Request.clause path ⟨.equal, .text v⟩) =
      .test c <$> (Comparator.equal.test <$> c.readOperand false (.text v)) :=
    (schema.clauseCondition_compare m hdot .equal (.text v)).trans
      (hc.onColumn_eq hclause (Lookup.mem_known_of_not_isReference hclause href) _)
  rw [hasked, hread]
  rfl

end Schema.IsColumn

section Tests

variable {c : ColumnRef} {column : String} (hown : c.IsOwn column)

include hown

theorem Condition.holds_contains_iff {db : Database} {row : Row} (v : String) :
    (test c (.contains (some v))).holds db row = true ↔
      ∃ s, (row.cell column).searchText? = some s ∧ searchIn v s = true := by
  rw [holds, ColumnRef.meets, hown.cells]
  simp only [List.any_cons, List.any_nil, Bool.or_false, ColumnRef.accepts, ColumnRef.excludes,
    ColumnRef.includes, Test.holds, Bool.not_false, Bool.true_and, Bool.false_or]
  cases (row.cell column).searchText? <;> simp

theorem Condition.holds_equal_text_iff {db : Database} {row : Row} (v : String) :
    (test c (.compare .equal (.text v))).holds db row = true ↔ row.cell column = .text v := by
  rw [holds, ColumnRef.meets, hown.cells]
  cases row.cell column <;> simp [ColumnRef.accepts, ColumnRef.excludes,
    ColumnRef.includes, Test.holds, ColumnRef.isOver, ColumnRef.isUnder, Comparator.holds,
    Cell.agrees, Cell.isPresent]

end Tests

theorem ColumnRef.canFetch_equal_text (c : ColumnRef) (v : String) :
    Verdict.CanFetch (c.verdict (.compare .equal (.text v))) := by
  have hyear : c.missingYear? (.compare .equal (.text v)) = none := by
    unfold missingYear?
    split <;> simp_all
  refine .inr ?_
  rw [verdict, hyear]
  cases c.isReference <;> simp [Test.operands, Cell.isOutOfCalendar, excludes, isOver, isUnder,
    overflows, Cell.overflows]

namespace Filter

variable {schema : Schema} {settings : Settings} {f : Filter} {q : Query} {db : Database}
  {c : ColumnRef} {clear : Row → Prop} {sees : Database → Row → Row → Prop} {fetched : List Row}

/-- On a column of texts a search finds the rows with a text, be it in the row itself or in a linked
one, in which what is looked for occurs before any null character. Equality finds no other rows, and
a search for a part of what is looked for finds them too. -/
theorem answer_contains (hschema : schema.Coherent) (hm : q.model ∈ schema.models)
    (hlooks : f.LooksAt schema q.model c clear sees) (href : c.isReference = false)
    (htext : c.scalar = .text) (hfetch : q.fetch db = .ok fetched)
    (hcells : ∀ row ∈ fetched, ∀ other, sees db row other →
      other.cell c.column = .null ∨ ∃ s, other.cell c.column = .text s) :
    ∃ found equals : String → List Row,
      (∀ v, f.answer schema settings q db ⟨.contains, .text v⟩ = .ok (found v)) ∧
      (∀ v, f.answer schema settings q db ⟨.equal, .text v⟩ = .ok (equals v)) ∧
      ∀ v : String, '\x00' ∉ v.toList →
        (∀ row, clear row → (row ∈ found v ↔ row ∈ fetched ∧ ∃ other s, sees db row other ∧
          other.cell c.column = .text s ∧ Occurs v.toList (Pattern.beforeNull s.toList))) ∧
        (∀ row ∈ equals v, row ∈ found v) ∧
        ∀ u : String, u.toList <:+: v.toList → ∀ row ∈ found v, row ∈ found u := by
  obtain ⟨reaches, target, path, frame, h, hsees⟩ := hlooks.exists_sees hschema hm
  have hdot := h.frames.noDot
  have hbase : c.isReference = true → ∀ d ∈ q.conditions, d.IsOwn := by simp [href]
  have hsearch (v : String) : Verdict.CanFetch (c.verdict (.contains (some v))) :=
    c.canFetch_of_operands_eq_nil rfl (by simp)
  choose found hfound hmem using fun v : String =>
    h.exists_answer_test hbase hfetch (hsearch v)
  choose equals hequals hmemEquals using fun v : String =>
    h.exists_answer_test hbase hfetch (c.canFetch_equal_text v)
  simp only [Condition.holds_contains_iff h.isColumn.isOwn] at hmem
  simp only [Condition.holds_equal_text_iff h.isColumn.isOwn] at hmemEquals
  refine ⟨found, equals, fun v => ?_, fun v => ?_, fun v hv => ⟨fun row hclear => ?_,
    fun row hrow => ?_, fun u hu row hrow => ?_⟩⟩
  · have hclause := h.isColumn.clauseCondition_contains_text hdot href v
    exact (h.answer_eq rfl hclause rfl db).trans (hfound v)
  · have hclause := h.isColumn.clauseCondition_equal_text hdot href htext v
    exact (h.answer_eq rfl hclause rfl db).trans (hequals v)
  · rw [hmem]
    refine and_congr_right fun hrow => exists_congr fun other => ?_
    constructor
    · rintro ⟨hreaches, s, hs, hsearch⟩
      have hother := (hsees db row other hclear).1 hreaches
      rcases hcells row hrow other hother with hcell | ⟨text, hcell⟩
      · rw [hcell] at hs
        cases hs
      · rw [hcell] at hs
        obtain rfl := Option.some.inj hs
        exact ⟨text, hother, hcell, (searchIn_iff_occurs hv).1 hsearch⟩
    · rintro ⟨s, hother, hcell, hoccurs⟩
      exact ⟨(hsees db row other hclear).2 hother, s, by rw [hcell]; rfl,
        (searchIn_iff_occurs hv).2 hoccurs⟩
  · obtain ⟨hfetched, other, hreaches, hcell⟩ := (hmemEquals v row).1 hrow
    exact (hmem v row).2 ⟨hfetched, other, hreaches, v, by rw [hcell]; rfl, searchIn_self hv⟩
  · obtain ⟨hfetched, other, hreaches, s, hs, hsearch⟩ := (hmem v row).1 hrow
    exact (hmem u row).2 ⟨hfetched, other, hreaches, s, hs, searchIn_of_part hv hu hsearch⟩

end Filter

open Blog in
/-- A percent sign stands for itself, and capitals are found by small letters. -/
theorem Filter.answer_contains_blog : ∃ found : String → List Row,
    (∀ v, byName.answer schema (.ofProject .null) (.all author) signatures
      ⟨.contains, .text v⟩ = .ok (found v)) ∧
    found "b" = [[("id", .int 9), ("name", .text "Bob")]] ∧
    [("id", .int 9), ("name", .text "Bob")] ∉ found "b%" ∧
    ∀ row ∈ found "ob", row ∈ found "b" := by
  have hauthor : (Query.all author).model ∈ schema.models := by decide +kernel
  have hlooks : byName.LooksAt schema author names (fun _ => True) fun _ row other => other = row :=
    .direct (by decide) isColumn_names
  have hfetch : (Query.all author).fetch signatures = .ok (signatures.rows "blog.Author") :=
    eq_ok_of_toOption (by decide +kernel)
  have hcells : ∀ row ∈ signatures.rows "blog.Author", ∀ other, other = row →
      other.cell names.column = .null ∨ ∃ s, other.cell names.column = .text s := by
    rintro row hrow _ rfl
    simp only [signatures, if_true, List.mem_cons, List.not_mem_nil, or_false] at hrow
    rcases hrow with rfl | rfl | rfl
    · exact .inr ⟨"Ada", rfl⟩
    · exact .inl rfl
    · exact .inr ⟨"Bob", rfl⟩
  obtain ⟨found, _, hfound, _, hall⟩ :=
    answer_contains coherent hauthor hlooks rfl rfl hfetch hcells
  have hb : (byName.answer schema (.ofProject .null) (.all author) signatures
      ⟨.contains, .text "b"⟩).toOption = some [[("id", .int 9), ("name", .text "Bob")]] := by
    decide +kernel
  rw [hfound] at hb
  refine ⟨found, hfound, Option.some.inj hb, fun hrow => ?_, ?_⟩
  · obtain ⟨hoccurs, _⟩ := hall "b%" (by decide)
    obtain ⟨_, _, s, rfl, hcell, hs⟩ := (hoccurs _ trivial).1 hrow
    obtain rfl : "Bob" = s := Cell.text.inj hcell
    exact absurd ((searchIn_iff_occurs (by decide)).2 hs) (by decide)
  · obtain ⟨_, _, hpart⟩ := hall "ob" (by decide)
    exact hpart "b" ⟨['o'], [], rfl⟩

open Blog in
/-- What stands after a null character is not found. -/
theorem Filter.answer_contains_after_null :
    byName.answer schema (.ofProject .null) (.all author)
      ⟨fun _ => [[("id", .int 7), ("name", .text "a\x00b")]]⟩ ⟨.contains, .text "b"⟩ = .ok [] ∧
    (Query.all author).fetch ⟨fun _ => [[("id", .int 7), ("name", .text "a\x00b")]]⟩ =
      .ok [[("id", .int 7), ("name", .text "a\x00b")]] ∧
    Occurs "b".toList "a\x00b".toList := by
  refine ⟨eq_ok_of_toOption (by decide +kernel), eq_ok_of_toOption (by decide +kernel), ?_⟩
  exact (Occurs.refl _).of_part ⟨['a', '\x00'], [], rfl⟩

end RowFilter
