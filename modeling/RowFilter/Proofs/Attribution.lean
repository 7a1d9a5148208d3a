import RowFilter.Proofs.Objections

/-!
Attribution. What a filter turns down itself is about the filter, and so is every error for a
column without a dot, since nothing that was read is turned down by a query. Through a relation the
query is given the column behind the name of a table, and it knows no filter: if nothing stands
there, or the name is that of another table, the error is about none, and its document has no
source. Nothing else is.
-/

namespace RowFilter

namespace Filter

variable {schema : Schema} {settings : Settings} {f : Filter} {m : Model} {v : Value}
  {asked : Request} {rel column : String}

/-- What a value ends in: an error that is about the filter, if it is one of a filter at all, or,
for a column of another table, one that is about none. -/
inductive Attributed (schema : Schema) (settings : Settings) (f : Filter) (v : Value) {α : Type} :
    Except Fault α → Prop where
  | own (x : Except Fault α) (hown : FailsWith (Fault.IsOwn f.name) x)
      (h : f.HasForeignColumn schema → ∀ asked, Request.read settings f.name v ≠ .ok asked) :
      Attributed schema settings f v x
  | foreign (qualified table : String) (h : f.HasForeignColumn schema)
      (hread : ∃ asked, Request.read settings f.name v = .ok asked) :
      Attributed schema settings f v (.error (.rejected (.foreignColumn qualified table)))

theorem Attributed.bind_foreign {α β : Type} {x : Except Fault α} {g : α → Except Fault β}
    (h : Attributed schema settings f v x) (hg : ∀ a, FailsWith Fault.IsForeign (g a)) :
    Attributed schema settings f v (x >>= g) := by
  cases h with
  | own x hown h => exact .own _ (hown.bind fun a => (hg a).mono fun _ => .inl) h
  | foreign qualified table h hread => exact .foreign qualified table h hread

section Related

variable (hcolumn : f.column = rel ++ "." ++ column) (hrel : '.' ∉ rel.toList)
  (hdot : '.' ∉ column.toList)

include hcolumn hrel hdot

/-- Through a relation, what could be read is about the filter or the column is of another table. -/
theorem attributed_conditionOf_related (hread : Request.read settings f.name v = .ok asked) :
    Attributed schema settings f v (f.conditionOf schema m asked).result := by
  rcases conditionOf_related_cases hcolumn hrel hdot m hread with
    ⟨hnowhere, r, _, hfound, hfails⟩ | ⟨_, ⟨hhas, qualified, table, hfails⟩ | ⟨hhas, hfails⟩⟩
  · rw [hfails]
    exact .own _ (.error (f.failsWith_relation rel _ hfound)) fun hhas =>
      absurd hhas (not_hasForeignColumn hcolumn hrel hdot hnowhere)
  · rw [hfails]
    exact .foreign qualified table hhas ⟨asked, hread⟩
  · exact .own _ (hfails.mono fun _ => .inl) fun hhas' => absurd hhas' hhas

end Related

theorem attributed_condition (schema : Schema) (settings : Settings) (f : Filter) (m : Model)
    (v : Value) : Attributed schema settings f v (f.condition schema settings m v).result := by
  have hlength : f.segments.length = f.column.toList.count '.' + 1 := Text.length_pieces '.' _
  unfold condition
  dsimp only
  split
  · next htoo =>
    refine .own _ (.error (.inr rfl)) fun hhas => ?_
    rw [hlength, hhas.count_dot, maxSegments] at htoo
    omega
  · next hfew =>
    simp only [Outcome.result_bind, Outcome.result_ofExcept]
    cases hread : Request.read settings f.name v with
    | error fault =>
        refine .own _ (.error (Request.failsWith_read settings f.name v fault hread)) ?_
        simp [hread]
    | ok asked =>
        have hattributed : Attributed schema settings f v
            (f.conditionOf schema m asked).result := by
          rcases f.column_cases with hmany | hdot | ⟨rel, column, hcolumn, hrel, hdot⟩
          · rw [hlength, maxSegments] at hfew
            omega
          · have hsegments : f.segments = [f.column] := Text.pieces_of_not_mem hdot
            rw [conditionOf, hsegments]
            refine .own _ ?_ fun hhas => ?_
            · exact (schema.failsWith_clauseCondition_asked m hread hdot).mono fun _ => .inl
            · have hcount := hhas.count_dot
              rw [List.count_eq_zero_of_not_mem hdot] at hcount
              cases hcount
          · exact attributed_conditionOf_related hcolumn hrel hdot hread
        exact hattributed.bind_foreign fun c =>
          asked.operand.failsWith_written.bind fun _ => .ok (asked, c)

/-- An error that a filter ends in is about the filter, unless the value could be read and the
column is of another table; then it is about none. So its document has a source that names the
filter's parameter except then, and except for a filter without a name. Where the owner is an
entity of a model of a coherent schema, the column ends in a dot then. -/
theorem apply_attributes {q : Query} {r : Rejection}
    (h : (f.apply schema settings q v).result = .error (.rejected r)) :
    (r.key ≠ some f.name ↔
      f.HasForeignColumn schema ∧ ∃ asked, Request.read settings f.name v = .ok asked) ∧
    (r.key ≠ some f.name →
      r.key = none ∧ Mapping.find? "source" r.error.entries = none ∧
      (schema.Coherent → (∀ e ∈ f.owner, ∃ m ∈ schema.models, e.IsOf schema m) →
        ∃ rel, f.column = rel ++ ".")) ∧
    (r.key = some f.name → f.name ≠ "" → Mapping.find? "source" r.error.entries =
      some (.object [("parameter", .text ("filter[" ++ f.name ++ "]"))])) := by
  have hattributed := attributed_condition schema settings f q.model v
  rw [result_apply_eq_error_iff.1 h] at hattributed
  cases hattributed with
  | own _ hown hread =>
      have hkey : r.key = some f.name := (hown _ rfl).resolve_left nofun
      refine ⟨iff_of_false (not_not_intro hkey) ?_, absurd hkey, fun _ hname => ?_⟩
      · rintro ⟨hhas, asked, hasked⟩
        exact hread hhas asked hasked
      · rw [FilterError.find?_source, FilterError.parameter?_of_key hkey hname]
        rfl
  | foreign qualified table hhas hread =>
      refine ⟨iff_of_true nofun ⟨hhas, hread⟩, fun _ => ⟨rfl, rfl, fun hschema howner => ?_⟩, nofun⟩
      obtain ⟨rel, _, _, hcolumn, _⟩ := hhas.exists_eq hschema howner
      exact ⟨rel, hcolumn⟩

end Filter

namespace Blog

def byNothing : Filter :=
  { byAuthor with column := "author." }

end Blog

open Blog in
/-- A text is turned down by the filter, and the error is about it. -/
theorem Filter.apply_attributes_blog : ∃ r,
    (byAuthor.apply schema (.ofProject .null) (.all post) (.text "Bob")).result =
      .error (.rejected r) ∧ r.key = some "author" ∧
    Mapping.find? "source" r.error.entries =
      some (.object [("parameter", .text "filter[author]")]) := by
  have hrejected : (byAuthor.apply schema (.ofProject .null) (.all post) (.text "Bob")).result =
      .error (.rejected (.notMapping "author")) := by rfl
  obtain ⟨_, _, hsource⟩ := apply_attributes hrejected
  exact ⟨_, hrejected, rfl, hsource rfl (by decide)⟩

open Blog in
/-- A column of authors that is none is turned down by the query, and the error is about nothing. -/
theorem Filter.apply_attributes_nothing :
    (byNothing.apply schema (.ofProject .null) (.all post) notBob).result =
      .error (.rejected (.foreignColumn "authors." "authors")) ∧
    (Rejection.foreignColumn "authors." "authors").key ≠ some byNothing.name ∧
    byNothing.name ≠ "" ∧
    Mapping.find? "source" (Rejection.foreignColumn "authors." "authors").error.entries = none := by
  refine ⟨by rfl, nofun, by decide, by rfl⟩

end RowFilter
