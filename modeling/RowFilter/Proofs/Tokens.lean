import RowFilter.Proofs.Columns

/-!
Tokens of an operand. Texts between commas are all that a list or a range is made of, so nothing of
an operand may be lost or changed where it is cut: what is cut and joined again is the operand, and
what is joined without commas of its own is cut into the same texts. The tokens are counted when a
request is read and are put into a clause after that; it is the same tokens both times, and so the
counts that a client can see in the operand decide what is asked of the column.
-/

namespace RowFilter

variable {settings : Settings} {name s : String} {v : Value} {tokens : List String}

/-- Whether a filter takes a value and puts the clause that a function makes of its column to the
query: to the one that it narrows or, by a relation, to that of the related rows, and what these are
linked to is left. -/
structure Filter.Issues (settings : Settings) (f : Filter) (v : Value) (ask : String → Clause) :
    Prop where
  direct (hdot : '.' ∉ f.column.toList) (schema : Schema) (q : Query) :
    (f.apply schema settings q v).result =
      q.narrow <$> schema.clauseCondition q.model (ask f.column)
  related {rel column : String} (hcolumn : f.column = rel ++ "." ++ column)
    (hrel : '.' ∉ rel.toList) (hdot : '.' ∉ column.toList) (schema : Schema) (q : Query) :
    (f.apply schema settings q v).result = (do
      let r ← f.relation rel
      let (related, join) ← schema.openLink r
      let d ← schema.clauseCondition related (ask (r.storageName ++ "." ++ column))
      q.narrow <$> (schema.closeLink q.model r related join [d]).result)

/-! ### Cutting and joining -/

theorem splitValues_text (s : String) : splitValues (.text s) = .ok (Text.pieces ',' s) :=
  rfl

theorem exists_pieces_eq_pair (h : s.toList.count ',' = 1) :
    ∃ low high, s = low ++ "," ++ high ∧ Text.pieces ',' s = [low, high] := by
  have hlength : (Text.pieces ',' s).length = 2 := by
    rw [Text.length_pieces, h]
  obtain ⟨low, high, hpair⟩ := List.length_eq_two.1 hlength
  refine ⟨low, high, ?_, hpair⟩
  have hjoined : ",".intercalate (Text.pieces ',' s) = s := Text.intercalate_pieces ',' s
  rw [← hjoined, hpair]
  rfl

/-! ### Counting and asking -/

namespace Request

theorem read_isIn {exceeds : Bool} (hasks : v.Asks (.text "in") (.text s))
    (h : settings.exceedsLimit (Text.pieces ',' s).length = .ok exceeds) (name : String) :
    read settings name v =
      if exceeds then .error (settings.maxInValues.told (.rejected
        (.tooManyValues name settings.maxInValues (Text.pieces ',' s).length)))
      else .ok ⟨.isIn, .text s⟩ := by
  have hread : read settings name v =
      (do checkCount settings name .isIn (.text s); return ⟨.isIn, .text s⟩) :=
    read_of_asks hasks settings name
  rw [hread, checkCount, splitValues_text]
  dsimp only [bind, Except.bind]
  rw [h]
  cases exceeds <;> rfl

theorem read_between (hasks : v.Asks (.text "between") (.text s)) (settings : Settings)
    (name : String) :
    read settings name v =
      if (Text.pieces ',' s).length = 2 then .ok ⟨.between, .text s⟩
      else .error (.rejected (.boundCount name (Text.pieces ',' s).length)) := by
  have hread : read settings name v =
      (do checkCount settings name .between (.text s); return ⟨.between, .text s⟩) :=
    read_of_asks hasks settings name
  rw [hread, checkCount, splitValues_text]
  dsimp only [bind, Except.bind]
  by_cases hcount : (Text.pieces ',' s).length = 2
  · rw [if_pos hcount, if_pos hcount]
    rfl
  · rw [if_neg hcount, if_neg hcount]

end Request

namespace Filter

variable {f : Filter}

theorem issues_of_read {asked : Request} (h : Request.read settings f.name v = .ok asked)
    (htext : asked.operand.hasText = true) : f.Issues settings v asked.clause := by
  have hwritten := Value.written_of_hasText htext
  constructor
  · intro hdot schema q
    rw [f.result_apply, result_condition_of_not_mem schema settings q.model hdot, h]
    dsimp only [bind, Except.bind]
    rw [hwritten]
    cases schema.clauseCondition q.model (asked.clause f.column) <;> rfl
  · intro rel column hcolumn hrel hdot schema q
    have hsegments : f.segments = [rel, column] :=
      Text.pieces_dot_eq_pair_iff.2 ⟨hcolumn, hrel, hdot⟩
    simp only [f.result_apply, condition, conditionOf, hsegments, maxSegments, List.length_cons,
      List.length_nil, Nat.reduceAdd, Nat.reduceLT, if_false, Outcome.result_bind,
      Outcome.result_ofExcept, h]
    dsimp only [bind, Except.bind]
    cases f.relation rel with
    | error fault => rfl
    | ok r =>
        dsimp only
        cases schema.openLink r with
        | error fault => rfl
        | ok opened =>
            dsimp only
            cases schema.clauseCondition opened.1
              (asked.clause (r.storageName ++ "." ++ column)) with
            | error fault => rfl
            | ok d =>
                dsimp only
                rw [hwritten]
                cases (schema.closeLink q.model r opened.1 opened.2 [d]).result <;> rfl

theorem issues_isIn (hasks : v.Asks (.text "in") (.text s))
    (hlimit : settings.exceedsLimit (Text.pieces ',' s).length = .ok false) :
    f.Issues settings v fun column => .isIn column (.list ((Text.pieces ',' s).map .text)) :=
  issues_of_read (Request.read_isIn hasks hlimit f.name) rfl

theorem issues_between {low high : String} (hasks : v.Asks (.text "between") (.text s))
    (htokens : Text.pieces ',' s = [low, high]) :
    f.Issues settings v fun column => .between column (.list [.text low, .text high]) := by
  have hread := Request.read_between hasks settings f.name
  rw [htokens] at hread
  have hclause : (Request.clause · ⟨.between, .text s⟩) =
      fun column => .between column (.list [.text low, .text high]) := by
    funext column
    show Clause.between column (.list ((Text.pieces ',' s).map .text)) = _
    rw [htokens]
    rfl
  exact hclause ▸ issues_of_read hread rfl

/-- Cutting a text at its commas loses nothing: its tokens have no commas, are one more than these,
and joined by commas are the text; and texts without commas are the tokens of what they are joined
to, with what is empty, repeated or has blanks around it. So a list asks for exactly the texts that
were joined, if they are not more than the limit, and for none if they are. A range is read exactly
if there is one comma in it, and asks for what is before and what is after it. -/
theorem issues_tokens :
    (∀ s, ∃ tokens, splitValues (.text s) = .ok tokens ∧ ",".intercalate tokens = s ∧
      (∀ token ∈ tokens, ',' ∉ token.toList) ∧ tokens.length = s.toList.count ',' + 1) ∧
    (∀ tokens : List String, tokens ≠ [] → (∀ token ∈ tokens, ',' ∉ token.toList) →
      splitValues (.text (",".intercalate tokens)) = .ok tokens ∧
      ∀ (settings : Settings) (f : Filter) (v : Value),
        v.Asks (.text "in") (.text (",".intercalate tokens)) →
        (settings.exceedsLimit tokens.length = .ok false →
          f.Issues settings v fun column => .isIn column (.list (tokens.map .text))) ∧
        (settings.exceedsLimit tokens.length = .ok true →
          Request.read settings f.name v = .error (settings.maxInValues.told (.rejected
            (.tooManyValues f.name settings.maxInValues tokens.length))))) ∧
    ∀ (settings : Settings) (f : Filter) (v : Value) (s : String),
      v.Asks (.text "between") (.text s) →
      ((∃ asked, Request.read settings f.name v = .ok asked) ↔ s.toList.count ',' = 1) ∧
      (s.toList.count ',' = 1 → ∃ low high, s = low ++ "," ++ high ∧
        f.Issues settings v fun column => .between column (.list [.text low, .text high])) := by
  refine ⟨fun s => ⟨Text.pieces ',' s, splitValues_text s, Text.intercalate_pieces ',' s,
    fun _ => Text.not_mem_of_mem_pieces, Text.length_pieces ',' s⟩, fun tokens hne hfree => ?_,
    fun settings f v s hasks => ⟨?_, fun h => ?_⟩⟩
  · have htokens : Text.pieces ',' (",".intercalate tokens) = tokens :=
      Text.pieces_intercalate hne hfree
    refine ⟨congrArg Except.ok htokens, fun settings f v hasks =>
      ⟨fun hlimit => ?_, fun hlimit => ?_⟩⟩
    · rw [← htokens] at hlimit
      have hissues := issues_isIn (f := f) hasks hlimit
      rwa [htokens] at hissues
    · rw [← htokens] at hlimit
      have hread := Request.read_isIn hasks hlimit f.name
      rwa [htokens] at hread
  · rw [Request.read_between hasks, Text.length_pieces]
    constructor
    · rintro ⟨asked, hasked⟩
      by_contra hcount
      rw [if_neg (by omega)] at hasked
      cases hasked
    · intro hcount
      exact ⟨_, if_pos (by omega)⟩
  · obtain ⟨low, high, hjoined, hpair⟩ := exists_pieces_eq_pair h
    exact ⟨low, high, hjoined, issues_between hasks hpair⟩

end Filter

open Blog in
/-- Names are asked for with the blanks around them, and as often as they were sent. -/
theorem Filter.issues_tokens_blog :
    (byAuthor.Issues (.ofProject .null)
      (.mapping [("operator", .text "in"), ("value", .text "Bob,, Ada,Bob")]) fun column =>
        .isIn column (.list [.text "Bob", .text "", .text " Ada", .text "Bob"])) ∧
    (¬ ∃ asked, Request.read (.ofProject .null) "author"
      (.mapping [("operator", .text "between"), ("value", .text "Ada,Bob,")]) = .ok asked) ∧
    ∃ low high, "Ada," = low ++ "," ++ high ∧ byAuthor.Issues (.ofProject .null)
      (.mapping [("operator", .text "between"), ("value", .text "Ada,")]) fun column =>
        .between column (.list [.text low, .text high]) := by
  obtain ⟨_, hlist, hrange⟩ := issues_tokens
  refine ⟨?_, ?_, ?_⟩
  · have hasks : (Value.mapping [("operator", .text "in"), ("value", .text "Bob,, Ada,Bob")]).Asks
        (.text "in") (.text (",".intercalate ["Bob", "", " Ada", "Bob"])) := ⟨_, rfl, rfl, rfl⟩
    exact ((hlist ["Bob", "", " Ada", "Bob"] (by simp) (by decide)).2 (.ofProject .null) byAuthor _
      hasks).1 rfl
  · exact (mt (hrange (.ofProject .null) byAuthor _ "Ada,Bob," ⟨_, rfl, rfl, rfl⟩).1.1 (by decide))
  · exact (hrange (.ofProject .null) byAuthor _ "Ada," ⟨_, rfl, rfl, rfl⟩).2 (by decide)

end RowFilter
