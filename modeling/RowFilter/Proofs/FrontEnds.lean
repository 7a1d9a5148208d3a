import RowFilter.Form.FilterSet
import RowFilter.Form.TypedInput
import RowFilter.Proofs.Conjunction
import RowFilter.Proofs.Paths
import RowFilter.Proofs.Refilling
import RowFilter.Proofs.Registrations
import RowFilter.Proofs.Registries
import RowFilter.Proofs.RoundTrip

/-!
Front ends. Requests reach filters as the inputs of a form, as parameters with bracketed keys, or as
typed inputs. Each is decoded in a way of its own, but a filter looks only at the operator and the
operand that it finds; and where a filter set makes its filters one by one on first use, a registry
is given them. What each front end comes to is therefore one fold: the query is narrowed by every
given field in turn. A failure of one front end is then that of the others, too.
-/

namespace RowFilter

/-- A filter looks at nothing of its owner but the label and the relations. -/
theorem Filter.apply_congr {schema : Schema} {settings : Settings} {name column : String}
    {d e : Entity} {q : Query} {v w : Value} (hlabel : d.label = e.label)
    (hrelations : d.relations = e.relations)
    (hread : Request.read settings name v = Request.read settings name w) :
    Filter.apply schema settings { name, column, owner := some d } q v =
      Filter.apply schema settings { name, column, owner := some e } q w := by
  refine Filter.apply_congr_of_relation rfl rfl (fun s _ _ => ?_) hread
  simp only [Filter.relation, Entity.relation?, hlabel, hrelations]

namespace FrontEnd

open FilterRegistry (ofList_eq_ok get?_of_mem)

/-- A name as fields have them: identifiers joined by doubled underscores. -/
structure Name where
  segments : List String
  ne : segments ≠ []
  names : ∀ s ∈ segments, Text.IsName s
  plain : ∀ s ∈ segments, Parameters.Plain s

/-- An operator, which need not be one that there is, and an operand, which may be empty. -/
structure Pair where
  operator : String
  operand : String
  ne : operator ≠ ""
  operator_free : '\x00' ∉ operator.toList
  operand_free : '\x00' ∉ operand.toList

structure Input where
  name : Name
  pair : Option Pair

namespace Name

def text (n : Name) : String :=
  "__".intercalate n.segments

def column (n : Name) : String :=
  ".".intercalate n.segments

def filter (n : Name) (e : Entity) : Filter :=
  { name := n.text, column := n.column, owner := some e }

variable {n : Name}

theorem doublePieces_text (n : Name) : Text.doublePieces n.text = n.segments :=
  Text.doublePieces_intercalate n.ne n.names

theorem intercalate_ne (n : Name) (separator : String) :
    separator.intercalate n.segments ≠ "" := by
  obtain ⟨s, rest, hsegments⟩ := List.exists_cons_of_ne_nil n.ne
  have hs : s ≠ "" := (n.plain s (hsegments ▸ List.mem_cons_self)).ne
  rw [hsegments]
  by_cases hrest : rest = []
  · rwa [hrest, String.intercalate_singleton]
  · rw [String.intercalate_cons_of_ne_nil hrest]
    intro h
    have hchars := congrArg String.toList h
    simp only [String.toList_append, List.append_assoc] at hchars
    exact hs (String.toList_eq_nil_iff.1 (List.append_eq_nil_iff.1 hchars).1)

theorem plain_text (n : Name) : Parameters.Plain n.text := by
  refine ⟨n.intercalate_ne _, ?_⟩
  have hfree (segments : List String) (h : ∀ s ∈ segments, BracketFree s.toList) :
      BracketFree ("__".intercalate segments).toList := by
    induction segments with
    | nil =>
        intro c hc
        cases hc
    | cons s rest ih =>
        obtain ⟨hs, hrest⟩ := List.forall_mem_cons.1 h
        by_cases hnil : rest = []
        · rwa [hnil, String.intercalate_singleton]
        · rw [String.intercalate_cons_of_ne_nil hnil]
          intro c hc
          rw [String.toList_append, String.toList_append] at hc
          rcases List.mem_append.1 hc with hc | hc
          · rcases List.mem_append.1 hc with hc | hc
            · exact hs c hc
            · have hunderscores : BracketFree "__".toList := by decide
              exact hunderscores c hc
          · exact ih hrest c hc
  exact hfree n.segments fun s hs => (n.plain s hs).free

end Name

namespace Pair

def value (p : Pair) : Value :=
  if p.operand = "" then .null else .text p.operand

def request (p : Pair) : Value :=
  .mapping [("operator", .text p.operator), ("value", p.value)]

/-- Whether a filter finds the operator and the operand in a value. -/
def IsAskedBy (p : Pair) (v : Value) : Prop :=
  ∃ entries, v = .mapping entries ∧
    Mapping.find? "operator" entries = some (.text p.operator) ∧
      Mapping.find? "value" entries = some p.value

theorem isAskedBy_request (p : Pair) : p.IsAskedBy p.request :=
  ⟨_, rfl, rfl, rfl⟩

theorem read_of_isAskedBy {p : Pair} {v : Value} (h : p.IsAskedBy v) (settings : Settings)
    (name : String) : Request.read settings name v = Request.read settings name p.request := by
  obtain ⟨entries, rfl, hoperator, hvalue⟩ := h
  have hoperator' : Mapping.find? "operator"
      [("operator", Value.text p.operator), ("value", p.value)] = some (.text p.operator) := rfl
  have hvalue' : Mapping.find? "value"
      [("operator", Value.text p.operator), ("value", p.value)] = some p.value := rfl
  rw [request, Request.read, Request.read, hoperator, hvalue, hoperator', hvalue']

end Pair

def given (inputs : List Input) : List (Name × Pair) :=
  inputs.filterMap fun i => i.pair.map fun p => (i.name, p)

theorem given_cons_of_none {i : Input} {rest : List Input} (h : i.pair = none) :
    given (i :: rest) = given rest := by
  simp [given, h]

theorem given_cons_of_some {i : Input} {rest : List Input} {p : Pair} (h : i.pair = some p) :
    given (i :: rest) = (i.name, p) :: given rest := by
  simp [given, h]

/-- What front ends come to: a query narrowed by the filters of given fields in turn. -/
def narrowBy (schema : Schema) (settings : Settings) (e : Entity) :
    List (Name × Pair) → Query → Except Fault Query
  | [], q => .ok q
  | (n, p) :: rest, q => do
    let narrowed ← ((n.filter e).apply schema settings q p.request).result
    narrowBy schema settings e rest narrowed

variable {schema : Schema} {settings : Settings} {m : Model} {q : Query} {e : Entity}
  {entities : EntityRegistry}

theorem model_of_apply {f : Filter} {v : Value} {narrowed : Query}
    (h : (f.apply schema settings q v).result = .ok narrowed) : narrowed.model = q.model := by
  unfold Filter.apply at h
  dsimp only at h
  split at h
  · rw [← Except.ok.inj h]
    rfl
  · cases h

theorem apply_eq_of_isOf {n : Name} {p : Pair} {d : Entity} {v : Value} (hd : d.IsOf schema m)
    (he : e.IsOf schema m) (h : p.IsAskedBy v) : (n.filter d).apply schema settings q v =
      (n.filter e).apply schema settings q p.request := by
  have hrelations : d.relations = e.relations :=
    Except.ok.inj (hd.relations.symm.trans he.relations)
  exact Filter.apply_congr (hd.label.trans he.label.symm) hrelations
    (Pair.read_of_isAskedBy h settings _)

theorem make_eq (n : Name) (m : Model) (entities : EntityRegistry) :
    (Filter.make schema n.text (some n.column) (some (.model m)) entities).1.result =
        n.filter <$> (EntityRegistry.register schema m entities).1.result ∧
      (Filter.make schema n.text (some n.column) (some (.model m)) entities).2 =
        (EntityRegistry.register schema m entities).2 :=
  Filter.make_model (n.intercalate_ne _) schema n.text m entities

/-- Whether the parameters of a form fill in a field as it is given. The inputs of a field that is
given nothing are blank or missing. -/
structure Input.IsIn (i : Input) (data : Mapping String) : Prop where
  operator : (Mapping.find? (FormPair.inputName i.name.text "operator") data).getD "" =
    (i.pair.map (·.operator)).getD ""
  value : (Mapping.find? (FormPair.inputName i.name.text "value") data).getD "" =
    (i.pair.map (·.operand)).getD ""

def filterSet (inputs : List Input) : FilterSet :=
  inputs.map fun i => (i.name.text, { fieldName := i.name.text })

def inputValue (text? : Option String) : Value :=
  (text?.map .text).getD .null

theorem pair_texts (p : Pair) : FormPair.pair (.text p.operator) (.text p.operand) =
    .mapping [("value", p.value), ("operator", .text p.operator)] := by
  have htruthy : (Value.text p.operator).truthy = true := by simpa [Value.truthy] using p.ne
  by_cases hempty : p.operand = ""
  · rw [Pair.value, if_pos hempty, hempty, FormPair.pair, htruthy, if_pos rfl]
  · rw [Pair.value, if_neg hempty, FormPair.pair, htruthy, if_pos rfl]
    exact fun h => hempty (Value.text.inj h)

/-- A field that is given nothing cleans to null, and one that is given a pair to a value of it. -/
theorem clean_input {i : Input} {data : Mapping String} (hi : i.IsIn data) :
    FormPair.clean false
        (.list [inputValue (Mapping.find? (FormPair.inputName i.name.text "operator") data),
          inputValue (Mapping.find? (FormPair.inputName i.name.text "value") data)]) =
      .ok (match i.pair with
        | none => .null
        | some p => .mapping [("value", p.value), ("operator", .text p.operator)]) := by
  have hread {text? : Option String} {text : String} (htext : text?.getD "" = text) :
      FormPair.inputText (inputValue text?) = .ok text ∧
        (FormPair.isBlank (inputValue text?) = true ↔ text = "") := by
    subst htext
    cases text? with
    | none => exact ⟨rfl, iff_of_true rfl rfl⟩
    | some text => exact ⟨FormPair.inputText_text text, FormPair.isBlank_text_iff⟩
  obtain ⟨hoperator, hoperand⟩ := hi
  obtain ⟨hoperator, hblank⟩ := hread hoperator
  obtain ⟨hoperand, hblank'⟩ := hread hoperand
  cases hpair : i.pair with
  | none =>
      rw [hpair] at hblank hblank'
      rw [FormPair.clean_of_blank_items (by rw [hblank.2 rfl, hblank'.2 rfl]; rfl)]
      rfl
  | some p =>
      rw [hpair] at hoperator hoperand hblank
      have hitem : FormPair.isBlank (inputValue
          (Mapping.find? (FormPair.inputName i.name.text "operator") data)) = false :=
        Bool.eq_false_iff.2 fun h => p.ne (hblank.1 h)
      rw [FormPair.clean_of_item (by rw [hitem]; rfl), FormPair.cleanPair_eq_ok_iff]
      exact ⟨p.operator, p.operand, ⟨hoperator, p.operator_free⟩, ⟨hoperand, p.operand_free⟩,
        pair_texts p⟩

theorem isAskedBy_form (p : Pair) :
    p.IsAskedBy (.mapping [("value", p.value), ("operator", .text p.operator)]) :=
  ⟨_, rfl, rfl, rfl⟩

theorem exists_make (n : Name) (hm : schema.find? m.key = some m) (he : e.IsOf schema m)
    (h : entities.Faithful schema) : ∃ d : Entity, d.IsOf schema m ∧
      (Filter.make schema n.text (some n.column) (some (.model m)) entities).1.result =
        .ok (n.filter d) ∧
      (Filter.make schema n.text (some n.column) (some (.model m)) entities).2.Faithful schema := by
  obtain ⟨hof, hrelations, hafter⟩ := h.register hm
  obtain ⟨hresult, hregistry⟩ := make_eq n m entities
  rw [he.relations] at hrelations
  rw [hresult, hregistry]
  cases hregistered : (EntityRegistry.register schema m entities).1.result with
  | error fault =>
      rw [hregistered] at hrelations
      cases hrelations
  | ok d => exact ⟨d, hof d hregistered, rfl, hafter⟩

/-- A field that makes its filter on the spot narrows a query as the filter does. -/
theorem settles_applyField {n : Name} {p : Pair} {v : Value} (hm : schema.find? m.key = some m)
    (he : e.IsOf schema m) (hv : p.IsAskedBy v) (hq : q.model = m) :
    Registering.Settles schema (fun registry =>
        let (narrowed, _, registry) :=
          FilterField.apply schema settings q v { fieldName := n.text } registry
        (narrowed, registry))
      ((n.filter e).apply schema settings q p.request).result := by
  intro registry hfaithful
  have hblank : FormPair.isBlank v = false := by
    obtain ⟨entries, rfl, hoperator, _⟩ := hv
    cases entries with
    | nil => cases hoperator
    | cons entry rest => rfl
  have hcolumn : FilterField.column { fieldName := n.text } = n.column := by
    rw [FilterField.column, n.doublePieces_text, Name.column]
  have hfilter : FilterField.filter schema q.model { fieldName := n.text } =
      Filter.make schema n.text (some n.column) (some (.model m)) := by
    rw [FilterField.filter, hcolumn, hq]
    rfl
  obtain ⟨d, hd, hmade, hafter⟩ := exists_make n hm he hfaithful
  simp only [FilterField.apply, hblank, hfilter, Bool.false_eq_true, if_false, Registering.run]
  generalize Filter.make schema n.text (some n.column) (some (.model m)) registry = made at *
  obtain ⟨⟨log, result⟩, after⟩ := made
  obtain rfl : result = .ok (n.filter d) := hmade
  dsimp only
  refine ⟨?_, hafter⟩
  rw [apply_eq_of_isOf hd he hv]
  cases hnarrowed : ((n.filter e).apply schema settings q p.request).result with
  | error fault => rw [Outcome.bind_of_error hnarrowed]
  | ok narrowed => rw [Outcome.bind_of_ok hnarrowed]; rfl

/-- A field that is given nothing is passed over, and one that is given a pair narrows the query as
its filter does, made on the spot. -/
theorem settles_applyFields {data : Mapping String} {inputs : List Input}
    (hm : schema.find? m.key = some m) (he : e.IsOf schema m)
    (hdata : ∀ i ∈ inputs, i.IsIn data) (hq : q.model = m) :
    Registering.Settles schema
      (FilterSet.applyFields schema settings data (filterSet inputs) q)
      (narrowBy schema settings e (given inputs) q) := by
  induction inputs generalizing q with
  | nil => exact Registering.settles_pure q
  | cons i rest ih =>
      obtain ⟨hi, hrest⟩ := List.forall_mem_cons.1 hdata
      have hcollect : FormPair.collect i.name.text data =
          (inputValue (Mapping.find? (FormPair.inputName i.name.text "operator") data),
            inputValue (Mapping.find? (FormPair.inputName i.name.text "value") data)) := rfl
      have hset : filterSet (i :: rest) =
          (i.name.text, { fieldName := i.name.text }) :: filterSet rest := rfl
      have hclean := clean_input hi
      rw [hset, FilterSet.applyFields, hcollect]
      dsimp only
      cases hpair : i.pair with
      | none =>
          rw [hpair] at hclean
          rw [hclean, given_cons_of_none hpair]
          have hskipped (registry : EntityRegistry) :
              FilterField.apply schema settings q .null { fieldName := i.name.text } registry =
                (pure q, { fieldName := i.name.text }, registry) := rfl
          dsimp only
          simp only [hskipped]
          exact (Registering.settles_pure q).bind fun _ h => Except.ok.inj h ▸ ih hrest hq
      | some p =>
          rw [hpair] at hclean
          rw [hclean, given_cons_of_some hpair, narrowBy]
          dsimp only
          refine (settles_applyField hm he (isAskedBy_form p) hq).bind fun narrowed hnarrowed => ?_
          exact ih hrest ((model_of_apply hnarrowed).trans hq)

def requests (gs : List (Name × Pair)) : Mapping Value :=
  gs.map fun (n, p) => (n.text, p.request)

/-- Whether entries ask for what given fields are given, in the same order. -/
def Carries (gs : List (Name × Pair)) (entries : Mapping Value) : Prop :=
  List.Forall₂ (fun g entry => entry.1 = g.1.text ∧ g.2.IsAskedBy entry.2) gs entries

theorem carries_requests (gs : List (Name × Pair)) : Carries gs (requests gs) := by
  induction gs with
  | nil => exact .nil
  | cons g rest ih => exact .cons ⟨rfl, g.2.isAskedBy_request⟩ ih

/-- A registry of the filters of given fields narrows a query by entries as these filters do. -/
theorem result_applyEntries_of_carries {registry : FilterRegistry} {gs : List (Name × Pair)}
    {entries : Mapping Value} (he : e.IsOf schema m)
    (hregistry : ∀ g ∈ gs, ∃ d : Entity, d.IsOf schema m ∧
      registry.get? g.1.text = some (g.1.filter d))
    (hentries : Carries gs entries) :
    (FilterRegistry.applyEntries schema settings registry entries q).result =
      narrowBy schema settings e gs q := by
  induction hentries generalizing q with
  | nil => rfl
  | @cons g entry gs entries hg _ ih =>
      obtain ⟨key, v⟩ := entry
      obtain ⟨n, p⟩ := g
      obtain ⟨rfl, hv⟩ := hg
      obtain ⟨⟨d, hd, hget⟩, hrest⟩ := List.forall_mem_cons.1 hregistry
      have hvalues : FilterRegistry.valuesOf v = [v] := by
        obtain ⟨entries, rfl, _⟩ := hv
        rfl
      have hone : FilterRegistry.applyAll schema settings (n.filter d) [v] q =
          (n.filter e).apply schema settings q p.request := by
        rw [← apply_eq_of_isOf hd he hv]
        exact bind_pure _
      rw [FilterRegistry.applyEntries, hget, hvalues, narrowBy]
      dsimp only
      rw [hone]
      cases hnarrowed : ((n.filter e).apply schema settings q p.request).result with
      | error fault =>
          rw [Outcome.bind_of_error hnarrowed]
          rfl
      | ok narrowed =>
          rw [Outcome.bind_of_ok hnarrowed]
          exact ih hrest

def sent (head : String) (gs : List (Name × Pair)) : Mapping Value :=
  gs.flatMap fun (n, p) =>
    [(BracketKey.write ⟨head, [n.text, "operator"]⟩, .text p.operator),
      (BracketKey.write ⟨head, [n.text, "value"]⟩, .text p.operand)]

open Parameters in
def assignments (gs : List (Name × Pair)) : List Assignment :=
  gs.flatMap fun (n, p) =>
    [⟨n.text, .entry "operator", .text p.operator⟩, ⟨n.text, .entry "value", p.value⟩]

open Parameters in
theorem readAll_sent {head : String} (hhead : Plain head) (gs : List (Name × Pair)) :
    Assignment.readAll (.text head) (sent head gs) = .ok (assignments gs) := by
  induction gs with
  | nil => rfl
  | cons g rest ih =>
      obtain ⟨n, p⟩ := g
      have hoperatorPlace : Place.IsWritable (.entry "operator") := ⟨by decide, by decide⟩
      have hvaluePlace : Place.IsWritable (.entry "value") := ⟨by decide, by decide⟩
      have hoperator : lastOf (.text p.operator) = .text p.operator := by
        simp [lastOf, p.ne]
      have hoperand : lastOf (.text p.operand) = p.value := by
        rw [Pair.value]
        split
        · next h => rw [h]; rfl
        · next h => simp [lastOf, h]
      have hfirst : Assignment.read? (.text head) (BracketKey.write ⟨head, [n.text, "operator"]⟩)
          (.text p.operator) = .ok (some ⟨n.text, .entry "operator", .text p.operator⟩) := by
        have hread := read?_write hhead n.plain_text hoperatorPlace (.text p.operator)
        rw [hoperator] at hread
        exact hread
      have hsecond : Assignment.read? (.text head) (BracketKey.write ⟨head, [n.text, "value"]⟩)
          (.text p.operand) = .ok (some ⟨n.text, .entry "value", p.value⟩) := by
        rw [← hoperand]
        exact read?_write hhead n.plain_text hvaluePlace (.text p.operand)
      have hsent : sent head ((n, p) :: rest) =
          (BracketKey.write ⟨head, [n.text, "operator"]⟩, .text p.operator) ::
            (BracketKey.write ⟨head, [n.text, "value"]⟩, .text p.operand) :: sent head rest := rfl
      rw [hsent, Assignment.readAll, hfirst, Assignment.readAll, hsecond, ih]
      rfl

open Parameters in
theorem assignAll_assignments {gs : List (Name × Pair)} {c : Collected}
    (h : (Mapping.keys c.direct ++ gs.map (·.1.text)).Nodup) :
    c.assignAll (assignments gs) = { c with direct := c.direct ++ requests gs } := by
  induction gs generalizing c with
  | nil => simp [assignments, requests, Collected.assignAll]
  | cons g rest ih =>
      obtain ⟨n, p⟩ := g
      have hnew : n.text ∉ Mapping.keys c.direct := by
        intro hmem
        rw [List.nodup_append] at h
        exact h.2.2 n.text hmem n.text (by simp) rfl
      have hpair : c.assignAll [⟨n.text, .entry "operator", .text p.operator⟩,
          ⟨n.text, .entry "value", p.value⟩] =
            { c with direct := c.direct ++ [(n.text, p.request)] } := by
        have hfound : Mapping.find? n.text c.direct = none := Mapping.find?_eq_none_iff.2 hnew
        simp only [Collected.assignAll, List.foldl_cons, List.foldl_nil, Collected.assign,
          Collected.setEntry, Collected.setValue, hfound, Mapping.find?_insert_self,
          Mapping.insert_insert]
        rw [Mapping.insert_of_notMem _ hnew]
        rfl
      have happend : c.assignAll (assignments ((n, p) :: rest)) =
          (c.assignAll [⟨n.text, .entry "operator", .text p.operator⟩,
            ⟨n.text, .entry "value", p.value⟩]).assignAll (assignments rest) := rfl
      -- the operator opens a mapping under a new name, and the operand goes into the same
      rw [happend, hpair, ih]
      · simp [requests]
      · simpa using h

/-- What is sent for given fields is read as their requests. -/
theorem result_filters_sent {head : String} {gs : List (Name × Pair)}
    (hhead : Parameters.Plain head) (hdistinct : (gs.map (·.1.text)).Nodup) :
    (Parameters.filters settings (sent head gs) (some head)).result = .ok (requests gs) := by
  rw [Parameters.result_filters settings _ hhead.ne, readAll_sent hhead]
  show Except.ok (Parameters.Collected.result _) = _
  rw [assignAll_assignments (by simpa [Mapping.keys] using hdistinct)]
  simp [Parameters.Collected.result, Mapping.update]

/-- Whether a typed input has an operator, as a member or as its token, and an operand that is not
empty. -/
def Pair.IsTypedIn (p : Pair) (v : Value) : Prop :=
  ∃ entries o, v = .mapping entries ∧ o.token = p.operator ∧ p.operand ≠ "" ∧
    (Mapping.find? "operator" entries = some (.member o) ∨
      Mapping.find? "operator" entries = some (.text o.token)) ∧
    Mapping.find? "value" entries = some (.text p.operand)

theorem Pair.IsTypedIn.isAskedBy {p : Pair} {v : Value} (h : p.IsTypedIn v) :
    p.IsAskedBy (TypedInput.toValue v) := by
  obtain ⟨entries, o, rfl, htoken, hne, hoperator, hvalue⟩ := h
  obtain ⟨operator, hfound, huntyped⟩ : ∃ operator, Mapping.find? "operator" entries =
      some operator ∧ TypedInput.untyped operator = .text p.operator := by
    rcases hoperator with hoperator | hoperator
    · exact ⟨_, hoperator, congrArg Value.text htoken⟩
    · exact ⟨_, hoperator, congrArg Value.text htoken⟩
  have hvalue' : Mapping.find? "value" (Mapping.insert "operator" (.text p.operator) entries) =
      some (.text p.operand) := by
    rw [Mapping.find?_insert_of_ne (by decide), hvalue]
  refine ⟨Mapping.insert "operator" (.text p.operator) entries, ?_,
    Mapping.find?_insert_self _ _ _, ?_⟩
  · simp [TypedInput.toValue, hfound, huntyped, Mapping.contains, hvalue']
  · rw [hvalue', Pair.value, if_neg hne]

theorem keys_given (inputs : List Input) :
    ((given inputs).map (·.1.text)).Sublist (inputs.map (·.name.text)) := by
  induction inputs with
  | nil => exact .slnil
  | cons i rest ih =>
      cases hpair : i.pair with
      | none =>
          rw [given_cons_of_none hpair]
          exact ih.cons _
      | some p =>
          rw [given_cons_of_some hpair]
          exact ih.cons_cons _

theorem mem_of_mem_given {inputs : List Input} {g : Name × Pair} (h : g ∈ given inputs) :
    ∃ i ∈ inputs, i.name = g.1 := by
  obtain ⟨i, hi, h⟩ := List.mem_filterMap.1 h
  obtain ⟨p, _, rfl⟩ := Option.map_eq_some_iff.1 h
  exact ⟨i, hi, rfl⟩

def AreMade (schema : Schema) (m : Model) (inputs : List Input) (filters : List Filter) : Prop :=
  List.Forall₂ (fun i f => ∃ entities, EntityRegistry.Reachable schema entities ∧
    (Filter.make schema i.name.text (some i.name.column) (some (.model m)) entities).1.result =
      .ok f) inputs filters

theorem exists_isOf_of_make {n : Name} {f : Filter} (hm : schema.find? m.key = some m)
    (h : entities.Faithful schema)
    (hf : (Filter.make schema n.text (some n.column) (some (.model m)) entities).1.result = .ok f) :
    ∃ d : Entity, d.IsOf schema m ∧ f = n.filter d := by
  obtain ⟨hof, _, _⟩ := h.register hm
  rw [(make_eq n m entities).1] at hf
  cases hregistered : (EntityRegistry.register schema m entities).1.result with
  | error fault => rw [hregistered] at hf; cases hf
  | ok d =>
      rw [hregistered] at hf
      exact ⟨d, hof d hregistered, (Except.ok.inj hf).symm⟩

theorem AreMade.keys {inputs : List Input} {filters : List Filter}
    (hkeys : ∀ m ∈ schema.models, schema.find? m.key = some m) (hm : m ∈ schema.models)
    (h : AreMade schema m inputs filters) :
    filters.map Filter.key = inputs.map (·.name.text) ∧
      ∀ i ∈ inputs, ∃ d : Entity, d.IsOf schema m ∧ i.name.filter d ∈ filters := by
  induction h with
  | nil => exact ⟨rfl, fun i hi => (List.not_mem_nil hi).elim⟩
  | @cons i f inputs filters hf _ ih =>
      obtain ⟨entities, hentities, hmade⟩ := hf
      obtain ⟨d, hd, rfl⟩ := exists_isOf_of_make (hkeys m hm) (hentities.faithful hkeys) hmade
      obtain ⟨hnames, hall⟩ := ih
      refine ⟨congrArg _ hnames, List.forall_mem_cons.2 ⟨⟨d, hd, List.mem_cons_self⟩, ?_⟩⟩
      intro i hi
      obtain ⟨d, hd, hmem⟩ := hall i hi
      exact ⟨d, hd, List.mem_cons_of_mem _ hmem⟩

/-- A filter set that is given the parameters of a form, and a registry of the filters of its fields
that is given what the same fields are sent as in brackets, or what typed inputs of them are turned
into, narrow a query to the same or fail alike. -/
theorem result_apply_eq {inputs : List Input} {data : Mapping String} {head : String}
    {filters : List Filter} (hkeys : ∀ m ∈ schema.models, schema.find? m.key = some m)
    (hq : q.model ∈ schema.models) (hentities : entities.Reachable schema)
    (hdistinct : (inputs.map (·.name.text)).Nodup) (hhead : Parameters.Plain head)
    (hdata : ∀ i ∈ inputs, i.IsIn data) (hfilters : AreMade schema q.model inputs filters) :
    ∃ registry incoming, FilterRegistry.ofList filters = .ok registry ∧
      (Parameters.filters settings (sent head (given inputs)) (some head)).result =
        .ok incoming ∧
      (FilterSet.apply schema settings (some data) (filterSet inputs) q entities).1.result =
        (registry.apply schema settings q (.mapping incoming)).result ∧
      ∀ typed : Mapping Value,
        List.Forall₂ (fun g entry => entry.1 = g.1.text ∧ g.2.IsTypedIn entry.2) (given inputs)
          typed →
        (registry.apply schema settings q
            (.mapping (typed.map fun (key, v) => (key, TypedInput.toValue v)))).result =
          (registry.apply schema settings q (.mapping incoming)).result := by
  obtain ⟨hnames, hmade⟩ := hfilters.keys hkeys hq
  have hnodup : (filters.map Filter.key).Nodup := hnames ▸ hdistinct
  have hgiven := hdistinct.sublist (keys_given inputs)
  have hget : ∀ g ∈ given inputs, ∃ d : Entity, d.IsOf schema q.model ∧
      FilterRegistry.get? ⟨filters⟩ g.1.text = some (g.1.filter d) := by
    intro g hg
    obtain ⟨i, hi, hname⟩ := mem_of_mem_given hg
    obtain ⟨d, hd, hmem⟩ := hmade i hi
    rw [hname] at hmem
    exact ⟨d, hd, get?_of_mem hnodup hmem⟩
  have hfold {e : Entity} (he : e.IsOf schema q.model) {entries : Mapping Value}
      (hentries : Carries (given inputs) entries) :
      (FilterRegistry.apply schema settings ⟨filters⟩ q (.mapping entries)).result =
        narrowBy schema settings e (given inputs) q := by
    rw [FilterRegistry.result_apply_mapping]
    exact result_applyEntries_of_carries he hget hentries
  have hform : FilterSet.apply schema settings (some data) (filterSet inputs) q =
      FilterSet.applyFields schema settings data (filterSet inputs) q := by
    rw [FilterSet.apply, if_neg]
    simp [filterSet, FilterField.hasEntity]
  have htyped {typed : Mapping Value} (h : List.Forall₂
      (fun g entry => entry.1 = g.1.text ∧ g.2.IsTypedIn entry.2) (given inputs) typed) :
      Carries (given inputs) (typed.map fun (key, v) => (key, TypedInput.toValue v)) := by
    rw [Carries, List.forall₂_map_right_iff]
    exact h.imp fun g entry hg => ⟨hg.1, hg.2.isAskedBy⟩
  refine ⟨⟨filters⟩, requests (given inputs), ofList_eq_ok hnodup,
    result_filters_sent hhead hgiven, ?_, fun typed h => ?_⟩
  · rw [hform]
    -- the fold needs an entity of the model, and only a field makes one
    cases inputs with
    | nil => rfl
    | cons i rest =>
        obtain ⟨e, he, _⟩ := hmade i List.mem_cons_self
        rw [hfold he (carries_requests _)]
        exact (settles_applyFields (hkeys _ hq) he hdata rfl entities
          (hentities.faithful hkeys)).1
  · cases inputs with
    | nil =>
        obtain rfl := List.forall₂_nil_left_iff.1 h
        rfl
    | cons i rest =>
        obtain ⟨e, he, _⟩ := hmade i List.mem_cons_self
        rw [hfold he (carries_requests _), hfold he (htyped h)]

end FrontEnd

namespace Blog

open FrontEnd

def authorName : Name :=
  { segments := ["author", "name"], ne := by decide, names := by decide, plain := by decide }

def postId : Name :=
  { segments := ["id"], ne := by decide, names := by decide, plain := by decide }

def byAda : Pair :=
  { operator := "=", operand := "Ada", ne := by decide, operator_free := by decide
    operand_free := by decide }

def inputs : List Input :=
  [⟨postId, none⟩, ⟨authorName, some byAda⟩]

def form : Mapping String :=
  [("author__name_value", "Ada"), ("id_operator", ""), ("author__name_operator", "=")]

def typedAda : Value :=
  .mapping [("value", .text "Ada"), ("operator", .member .equal)]

theorem isIn_form : ∀ i ∈ inputs, i.IsIn form :=
  List.forall_mem_cons.2 ⟨⟨by decide +kernel, by decide +kernel⟩,
    List.forall_mem_singleton.2 ⟨by decide +kernel, by decide +kernel⟩⟩

end Blog

namespace FrontEnd

open Blog in
theorem result_apply_eq_blog : ∃ filters registry incoming narrowed,
    FilterRegistry.ofList filters = .ok registry ∧
    (Parameters.filters (.ofProject .null) (sent "filter" (given inputs)) (some "filter")).result =
      .ok incoming ∧
    (FilterSet.apply schema (.ofProject .null) (some form) (filterSet inputs) (.all post)
      {}).1.result = .ok narrowed ∧
    (registry.apply schema (.ofProject .null) (.all post) (.mapping incoming)).result =
      .ok narrowed ∧
    (registry.apply schema (.ofProject .null) (.all post)
      (.mapping [("author__name", TypedInput.toValue typedAda)])).result = .ok narrowed ∧
    narrowed.fetch shelf =
      .ok [[("id", .int 1), ("author_id", .int 7)], [("id", .int 3), ("author_id", .int 7)]] := by
  have hmake : ∀ n ∈ [postId, authorName], ((Filter.make schema n.text (some n.column)
      (some (.model post)) {}).1.result.toOption.isSome) = true := by decide +kernel
  obtain ⟨hid, hname⟩ := List.forall_mem_cons.1 hmake
  obtain ⟨idFilter, hid⟩ := Option.isSome_iff_exists.1 hid
  obtain ⟨nameFilter, hname⟩ := Option.isSome_iff_exists.1 (hname _ List.mem_cons_self)
  have hmade : AreMade schema (Query.all post).model inputs [idFilter, nameFilter] :=
    .cons ⟨{}, .new 0, eq_ok_of_toOption hid⟩ (.cons ⟨{}, .new 0, eq_ok_of_toOption hname⟩ .nil)
  have hpost : (Query.all post).model ∈ schema.models := by decide +kernel
  obtain ⟨registry, incoming, hofList, hincoming, hform, htyped⟩ :=
    @result_apply_eq schema (.ofProject .null) (.all post) {} inputs form "filter"
      [idFilter, nameFilter] coherent.find_key hpost (.new 0) (by decide +kernel) (by decide)
      isIn_form hmade
  have hada : byAda.IsTypedIn typedAda :=
    ⟨_, .equal, rfl, rfl, by decide, .inl rfl, rfl⟩
  have hshelf : (FilterSet.apply schema (.ofProject .null) (some form) (filterSet inputs)
      (.all post) {}).1.result.toOption.bind (fun narrowed => (narrowed.fetch shelf).toOption) =
      some [[("id", .int 1), ("author_id", .int 7)],
        [("id", .int 3), ("author_id", .int 7)]] := by
    decide +kernel
  cases hnarrowed : (FilterSet.apply schema (.ofProject .null) (some form) (filterSet inputs)
      (.all post) {}).1.result with
  | error fault =>
      rw [hnarrowed] at hshelf
      cases hshelf
  | ok narrowed =>
      rw [hnarrowed] at hshelf hform
      have hsame := htyped [("author__name", typedAda)] (.cons ⟨by decide +kernel, hada⟩ .nil)
      exact ⟨_, registry, incoming, narrowed, hofList, hincoming, rfl, hform.symm,
        hsame.trans hform.symm, eq_ok_of_toOption hshelf⟩

end FrontEnd

end RowFilter
