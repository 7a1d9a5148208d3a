import RowFilter.Proofs.Paths
import RowFilter.Proofs.Registries

/-!
What steps mean. A step by a relation keeps a row exactly if some visible row of the related model
is linked to it, by the field that the relation was made from, and meets all inner steps; those by
further relations are read from that row on, to any depth. The condition that a step makes says the
same through columns and joins, and this is shown by induction over steps, next to lists of steps.
The inner clauses must be about columns of the related rows themselves; then no joins are shared
between them, and the link alone decides which rows are looked at. And pairs must refer by their
keys to the rows that are led from: where they do not, linked rows are missed.
-/

namespace RowFilter

namespace Schema

variable {schema : Schema} {m : Model} {x : Member} {r : Relation} {name : String}
  {table : RelationTable}

/-- Whether a member of a model is what a relation of the model is made from. -/
def Makes (schema : Schema) (m : Model) (x : Member) (r : Relation) : Prop :=
  x ∈ schema.members m ∧ (schema.relationOf m x).result = .ok (some r)

theorem exists_of_collectRelations {start : RelationTable} {members : List Member}
    (h : (schema.collectRelations m start members).result = .ok table)
    (hname : Mapping.find? name table = some r) :
    Mapping.find? name start = some r ∨
      ∃ x ∈ members, (schema.relationOf m x).result = .ok (some r) := by
  induction members generalizing start with
  | nil =>
      rw [collectRelations] at h
      obtain rfl := Except.ok.inj h
      exact .inl hname
  | cons x rest ih =>
      rw [collectRelations, Outcome.result_bind_eq_ok_iff] at h
      obtain ⟨made, hmade, h⟩ := h
      cases made with
      | none =>
          rcases ih h with hstart | ⟨y, hy, hr⟩
          · exact .inl hstart
          · exact .inr ⟨y, List.mem_cons_of_mem x hy, hr⟩
      | some made =>
          rcases ih h with hstart | ⟨y, hy, hr⟩
          · rw [Mapping.find?_insert] at hstart
            split at hstart
            · obtain rfl := Option.some.inj hstart
              exact .inr ⟨x, List.mem_cons_self, hmade⟩
            · exact .inl hstart
          · exact .inr ⟨y, List.mem_cons_of_mem x hy, hr⟩

/-- What the relations of a model have under a name is made from a member of the model. -/
theorem exists_makes_of_relationTable (h : (schema.relationTable m).result = .ok table)
    (hname : Mapping.find? name table = some r) : ∃ x, schema.Makes m x r := by
  rcases exists_of_collectRelations h hname with hstart | ⟨x, hx, hr⟩
  · cases hstart
  · exact ⟨x, hx, hr⟩

end Schema

namespace Step

mutual

def conditionOn (schema : Schema) : Step → Model → Except Fault Condition
  | clause c, m => schema.clauseCondition m c
  | related ref inner, m => do
    let r ← ref.relationOn schema m
    let (target, join) ← schema.openLink r
    let found ← conditionsOn schema inner target
    let outer ← schema.outerColumn m r.outerKey
    return .linked ⟨target, join, outer⟩ found

def conditionsOn (schema : Schema) : List Step → Model → Except Fault (List Condition)
  | [], _ => .ok []
  | s :: rest, m => do
    let c ← s.conditionOn schema m
    return c :: (← conditionsOn schema rest m)

end

mutual

/-- Whether all clauses of a step are about the rows of the models that they are on, and all
relations of it are made from members of these models. -/
def IsOver (schema : Schema) : Step → Model → Prop
  | clause c, m => c.IsOwn schema m
  | related ref inner, m => ∀ r target, ref.relationOn schema m = .ok r →
      schema.find? r.related = some target →
        (∃ x, schema.Makes m x r) ∧ AllOver schema inner target

def AllOver (schema : Schema) : List Step → Model → Prop
  | [], _ => True
  | s :: rest, m => s.IsOver schema m ∧ AllOver schema rest m

end

mutual

/-- Whether a row of a model meets a step: its own cells meet a clause, and by a relation there is
a visible row, linked by a member that makes the relation, that meets the inner steps. -/
def Meets (schema : Schema) (db : Database) : Step → Model → Row → Prop
  | clause c, m, row => ∃ found, schema.clauseCondition m c = .ok found ∧ found.holds db row = true
  | related ref inner, m, row => ∃ r x target, ref.relationOn schema m = .ok r ∧
      schema.Makes m x r ∧ schema.find? r.related = some target ∧
        ∃ other ∈ db.visible target, schema.Linked db x row other ∧
          AllMet schema db inner target other

def AllMet (schema : Schema) (db : Database) : List Step → Model → Row → Prop
  | [], _, _ => True
  | s :: rest, m, row => s.Meets schema db m row ∧ AllMet schema db rest m row

end

mutual

/-- Whether the pairs by which relations lead from a row of a model, and from the linked rows that
inner steps are read from, refer to these by their keys. -/
def IsByKey (schema : Schema) (db : Database) : Step → Model → Row → Prop
  | clause _, _, _ => True
  | related ref inner, m, row => ∀ r x target, ref.relationOn schema m = .ok r →
      schema.Makes m x r → schema.find? r.related = some target →
        schema.PairsByKey m x row ∧ ∀ other ∈ db.visible target, schema.Linked db x row other →
          AllByKey schema db inner target other

def AllByKey (schema : Schema) (db : Database) : List Step → Model → Row → Prop
  | [], _, _ => True
  | s :: rest, m, row => s.IsByKey schema db m row ∧ AllByKey schema db rest m row

end

variable {schema : Schema} {m target : Model} {db : Database} {r : Relation} {x : Member}
  {ref : RelationRef} {inner : List Step} {found : List Condition} {c : Condition}

theorem conditionOn_related_eq_ok_iff : (related ref inner).conditionOn schema m = .ok c ↔
    ∃ r target join found outer, ref.relationOn schema m = .ok r ∧
      schema.openLink r = .ok (target, join) ∧ conditionsOn schema inner target = .ok found ∧
        schema.outerColumn m r.outerKey = .ok outer ∧ c = .linked ⟨target, join, outer⟩ found := by
  rw [conditionOn]
  constructor
  · intro h
    obtain ⟨r, hr, h⟩ := Except.bind_eq_ok_iff.1 h
    obtain ⟨⟨target, join⟩, hopen, h⟩ := Except.bind_eq_ok_iff.1 h
    obtain ⟨found, hfound, h⟩ := Except.bind_eq_ok_iff.1 h
    obtain ⟨outer, houter, h⟩ := Except.bind_eq_ok_iff.1 h
    exact ⟨r, target, join, found, outer, hr, hopen, hfound, houter, (Except.ok.inj h).symm⟩
  · rintro ⟨r, target, join, found, outer, hr, hopen, hfound, houter, rfl⟩
    rw [hr]
    show (schema.openLink r >>= _) = _
    rw [hopen]
    show (conditionsOn schema inner target >>= _) = _
    rw [hfound]
    show (schema.outerColumn m r.outerKey >>= _) = _
    rw [houter]
    rfl

theorem conditionsOn_cons_eq_ok_iff {s : Step} {rest : List Step} :
    conditionsOn schema (s :: rest) m = .ok found ↔ ∃ c others, s.conditionOn schema m = .ok c ∧
      conditionsOn schema rest m = .ok others ∧ found = c :: others := by
  rw [conditionsOn]
  constructor
  · intro h
    obtain ⟨c, hc, h⟩ := Except.bind_eq_ok_iff.1 h
    obtain ⟨others, hothers, h⟩ := Except.bind_eq_ok_iff.1 h
    exact ⟨c, others, hc, hothers, (Except.ok.inj h).symm⟩
  · rintro ⟨c, others, hc, hothers, rfl⟩
    rw [hc]
    show (conditionsOn schema rest m >>= _) = _
    rw [hothers]
    rfl

mutual

/-- In a faithful registry a step makes the condition that is read off the schema. -/
theorem settles_condition (hkeys : ∀ m ∈ schema.models, schema.find? m.key = some m) :
    ∀ (s : Step) {m : Model}, m ∈ schema.models →
    Registering.Settles schema (s.condition schema m) (s.conditionOn schema m)
  | clause c, m, _ => by
    rw [condition, conditionOn]
    exact Registering.settles_lift _
  | related ref inner, m, hm => by
    rw [condition, conditionOn]
    refine (RelationRef.settles_resolve (hkeys m hm) ref).bind fun r _ => ?_
    refine (Registering.settles_lift (.ofExcept (schema.openLink r))).bind fun opened hopen => ?_
    obtain ⟨target, join⟩ := opened
    have htarget := Schema.mem_of_find? (Schema.openLink_eq_ok_iff.1 hopen).1
    refine (settles_conditions hkeys inner htarget).bind fun found _ => ?_
    have hclose : (schema.closeLink m r target join found).result =
        (do return .linked ⟨target, join, ← schema.outerColumn m r.outerKey⟩ found) := by
      rw [Schema.closeLink]
      cases houter : schema.outerColumn m r.outerKey <;> rfl
    rw [← hclose]
    exact Registering.settles_lift _

theorem settles_conditions (hkeys : ∀ m ∈ schema.models, schema.find? m.key = some m) :
    ∀ (steps : List Step) {m : Model}, m ∈ schema.models →
    Registering.Settles schema (conditions schema steps m) (conditionsOn schema steps m)
  | [], _, _ => by
    rw [conditions, conditionsOn]
    exact Registering.settles_pure _
  | s :: rest, m, hm => by
    rw [conditions, conditionsOn]
    refine (settles_condition hkeys s hm).bind fun c _ => ?_
    exact (settles_conditions hkeys rest hm).bind fun others _ => Registering.settles_pure _

end

theorem result_apply {registry : EntityRegistry} {q : Query} (hschema : schema.Coherent)
    (hm : q.model ∈ schema.models) (hregistry : registry.Reachable schema) (s : Step) :
    (s.apply schema q registry).1.result = q.narrow <$> s.conditionOn schema q.model := by
  have hsettles : Registering.Settles schema (s.apply schema q)
      (s.conditionOn schema q.model >>= fun c => .ok (q.narrow c)) := by
    rw [apply]
    exact (settles_condition hschema.find_key s hm).bind fun c _ => Registering.settles_pure _
  rw [(hsettles registry (hregistry.faithful hschema.find_key)).1]
  cases s.conditionOn schema q.model <;> rfl

theorem isOver_name {s : String}
    (h : ∀ r target, (RelationRef.name s).relationOn schema m = .ok r →
      schema.find? r.related = some target → AllOver schema inner target) :
    (related (.name s) inner).IsOver schema m := by
  rw [IsOver]
  intro r target hr hfind
  refine ⟨?_, h r target hr hfind⟩
  obtain ⟨table, htable, hname⟩ := Except.bind_eq_ok_iff.1 hr
  split at hname
  · next found hfound =>
    obtain rfl := Except.ok.inj hname
    exact Schema.exists_makes_of_relationTable htable hfound
  · cases hname

mutual

/-- The condition that a step makes is met by the rows that meet the step, and looks at no
others. -/
theorem holds_conditionOn_iff (hschema : schema.Coherent) : ∀ (s : Step) {m : Model}
    {c : Condition}, m ∈ schema.models → s.IsOver schema m → s.conditionOn schema m = .ok c →
      c.IsOwn ∧ ∀ db row, s.IsByKey schema db m row →
        (c.holds db row = true ↔ s.Meets schema db m row)
  | clause asked, m, c, _, hover, h => by
    rw [conditionOn] at h
    rw [IsOver] at hover
    refine ⟨hover c h, fun db row _ => ?_⟩
    rw [Meets]
    constructor
    · intro hholds
      exact ⟨c, h, hholds⟩
    · rintro ⟨found, hfound, hholds⟩
      obtain rfl := Except.ok.inj (h.symm.trans hfound)
      exact hholds
  | related ref inner, m, c, hm, hover, h => by
    obtain ⟨r, target, join, found, outer, hr, hopen, hfound, houter, rfl⟩ :=
      conditionOn_related_eq_ok_iff.1 h
    have hfind := (Schema.openLink_eq_ok_iff.1 hopen).1
    rw [IsOver] at hover
    obtain ⟨⟨x, hx, hmade⟩, hinner⟩ := hover r target hr hfind
    obtain ⟨hown, hall⟩ :=
      holds_conditionsOn_iff hschema inner (Schema.mem_of_find? hfind) hinner hfound
    obtain ⟨near, _, hnear, hleads⟩ :=
      Schema.leads_iff_linked hschema hm hx hmade hopen houter
    refine ⟨?_, fun db row hrow => ?_⟩
    · intro t ht
      obtain rfl := Option.some.inj ht
      exact List.length_eq_zero_iff.2 hnear.hops
    · rw [IsByKey] at hrow
      rw [Condition.holds_linked_iff_of_isOwn hown, Meets]
      constructor
      · rintro ⟨other, hvisible, hlead, hholds⟩
        obtain ⟨hkeys, hothers⟩ := hrow r x target hr ⟨hx, hmade⟩ hfind
        have hlinked := (hleads db row other hkeys).1 hlead
        exact ⟨r, x, target, hr, ⟨hx, hmade⟩, hfind, other, hvisible, hlinked,
          (hall db other (hothers other hvisible hlinked)).1 hholds⟩
      · rintro ⟨r', y, target', hr', ⟨hy, hmade'⟩, hfind', other, hvisible, hlinked, hmet⟩
        obtain rfl := Except.ok.inj (hr.symm.trans hr')
        obtain rfl := Option.some.inj (hfind.symm.trans hfind')
        -- whichever member makes the relation, it links the same rows
        obtain ⟨_, _, _, hleads'⟩ :=
          Schema.leads_iff_linked hschema hm hy hmade' hopen houter
        obtain ⟨hkeys, hothers⟩ := hrow r y target hr ⟨hy, hmade'⟩ hfind
        exact ⟨other, hvisible, (hleads' db row other hkeys).2 hlinked,
          (hall db other (hothers other hvisible hlinked)).2 hmet⟩

theorem holds_conditionsOn_iff (hschema : schema.Coherent) : ∀ (steps : List Step) {m : Model}
    {found : List Condition}, m ∈ schema.models → AllOver schema steps m →
      conditionsOn schema steps m = .ok found →
        (∀ c ∈ found, c.IsOwn) ∧ ∀ db row, AllByKey schema db steps m row →
          ((∀ c ∈ found, c.holds db row = true) ↔ AllMet schema db steps m row)
  | [], m, found, _, _, h => by
    rw [conditionsOn] at h
    obtain rfl := Except.ok.inj h
    refine ⟨fun c hc => (List.not_mem_nil hc).elim, fun db row _ => ?_⟩
    rw [AllMet]
    exact iff_of_true (fun c hc => (List.not_mem_nil hc).elim) trivial
  | s :: rest, m, found, hm, hover, h => by
    obtain ⟨c, others, hc, hothers, rfl⟩ := conditionsOn_cons_eq_ok_iff.1 h
    rw [AllOver] at hover
    obtain ⟨hown, hholds⟩ := holds_conditionOn_iff hschema s hm hover.1 hc
    obtain ⟨hallOwn, hall⟩ := holds_conditionsOn_iff hschema rest hm hover.2 hothers
    refine ⟨List.forall_mem_cons.2 ⟨hown, hallOwn⟩, fun db row hrow => ?_⟩
    rw [AllByKey] at hrow
    rw [List.forall_mem_cons, hholds db row hrow.1, hall db row hrow.2, AllMet]

end

/-- By an entry of the relations of its model, given as such or by its name, a query is narrowed to
the rows that are linked, by whatever member of the model makes the relation, to a visible row that
meets the inner steps, wherever pairs refer by their keys to the rows that are led from. What is
fetched then is what was fetched before but for the other rows, and no row without a key is left. -/
theorem fetch_apply_related {registry : EntityRegistry} {q : Query} {table : RelationTable}
    {name : String} (hschema : schema.Coherent) (hm : q.model ∈ schema.models)
    (hregistry : registry.Reachable schema)
    (htable : (schema.relationTable q.model).result = .ok table)
    (hname : Mapping.find? name table = some r) :
    (∃ x, schema.Makes q.model x r) ∧ ∀ x, schema.Makes q.model x r → x.isKeyed = true →
      ∃ target near, schema.find? r.related = some target ∧
        schema.linkingField? q.model x = some near ∧
        ∀ inner found, AllOver schema inner target →
          (conditions schema inner target registry).1.result = .ok found →
          ∃ narrowed,
            ((related (.relation r) inner).apply schema q registry).1.result = .ok narrowed ∧
            ((related (.name name) inner).apply schema q registry).1.result = .ok narrowed ∧
            ∀ db remaining, narrowed.fetch db = .ok remaining →
              ∃ fetched keep, q.fetch db = .ok fetched ∧ remaining = fetched.filter keep ∧
                ∀ row, (schema.PairsByKey q.model x row →
                    (∀ other ∈ db.visible target, schema.Linked db x row other →
                      AllByKey schema db inner target other) →
                    (keep row = true ↔ ∃ other ∈ db.visible target,
                      schema.Linked db x row other ∧ AllMet schema db inner target other)) ∧
                  (row.cell near.columnName = .null → keep row = false) := by
  refine ⟨Schema.exists_makes_of_relationTable htable hname, fun x hx hkeyed => ?_⟩
  obtain ⟨target, join, outer, hopen, houter⟩ := Schema.exists_openLink hschema hm hx.1 hkeyed hx.2
  obtain ⟨near, hlinking, hnear, hleads⟩ :=
    Schema.leads_iff_linked hschema hm hx.1 hx.2 hopen houter
  have hfind := (Schema.openLink_eq_ok_iff.1 hopen).1
  have htarget := Schema.mem_of_find? hfind
  refine ⟨target, near, hfind, hlinking, fun inner found hover hfound => ?_⟩
  rw [(settles_conditions hschema.find_key inner htarget registry
    (hregistry.faithful hschema.find_key)).1] at hfound
  have hcondition {ref : RelationRef} (hr : ref.relationOn schema q.model = .ok r) :
      ((related ref inner).apply schema q registry).1.result =
        .ok (q.narrow (.linked ⟨target, join, outer⟩ found)) := by
    have hmade := conditionOn_related_eq_ok_iff.2
      ⟨r, target, join, found, outer, hr, hopen, hfound, houter, rfl⟩
    rw [result_apply hschema hm hregistry, hmade]
    rfl
  have hnamed := RelationRef.relationOn_name htable hname
  obtain ⟨hown, hall⟩ := holds_conditionsOn_iff hschema inner htarget hover hfound
  refine ⟨_, hcondition rfl, hcondition hnamed, fun db remaining hfetch => ?_⟩
  have hself : (Condition.linked ⟨target, join, outer⟩ found).IsOwn := by
    intro t ht
    obtain rfl := Option.some.inj ht
    exact List.length_eq_zero_iff.2 hnear.hops
  obtain ⟨fetched, hfetched, rfl⟩ := Query.fetch_narrow_linked hself hfetch
  refine ⟨fetched, _, hfetched, rfl, fun row => ⟨fun hrow hothers => ?_, fun hnull => ?_⟩⟩
  · rw [Condition.holds_linked_iff_of_isOwn hown]
    constructor
    · rintro ⟨other, hvisible, hlead, hholds⟩
      have hlinked := (hleads db row other hrow).1 hlead
      exact ⟨other, hvisible, hlinked,
        (hall db other (hothers other hvisible hlinked)).1 hholds⟩
    · rintro ⟨other, hvisible, hlinked, hmet⟩
      exact ⟨other, hvisible, (hleads db row other hrow).2 hlinked,
        (hall db other (hothers other hvisible hlinked)).2 hmet⟩
  · rw [← Bool.not_eq_true, Condition.holds_linked_iff_of_isOwn hown]
    rintro ⟨other, _, hlead, _⟩
    rw [Link.leads, hnear.read, hnull] at hlead
    simp at hlead

end Step

namespace Blog

def toAuthor : Relation :=
  { name := "author", related := "blog.Author", relatedLabel := "blog.author"
    storageName := "authors", joinKey := "id", outerKey := "author_id", kind := .manyToOne }

/-- Asks for authors with a name who wrote one of two posts. -/
def wroteFirst : List Step :=
  [.clause (.notNull "name"),
    .related (.name "post_set") [.clause (.isIn "id" (.list [.int 1, .int 2]))]]

theorem allOver_wroteFirst : Step.AllOver schema wroteFirst author := by
  have hname : (Clause.notNull "name").IsOwn schema author :=
    Clause.isOwn_of_isOwnColumn fun path hpath => by
      obtain rfl : "name" = path := Except.ok.inj hpath
      exact ⟨by decide, author, _, rfl, by decide, by decide⟩
  have hid : (Clause.isIn "id" (.list [.int 1, .int 2])).IsOwn schema post :=
    Clause.isOwn_of_isOwnColumn fun path hpath => by
      obtain rfl : "id" = path := Except.ok.inj hpath
      exact ⟨by decide, post, _, rfl, by decide, by decide⟩
  have hposts : (Step.related (.name "post_set")
      [.clause (.isIn "id" (.list [.int 1, .int 2]))]).IsOver schema author := by
    refine Step.isOver_name fun r target hr hfind => ?_
    have hrelated : ((RelationRef.name "post_set").relationOn schema author).toOption.all
        (fun r => schema.find? r.related == some post) = true := by decide +kernel
    rw [hr] at hrelated
    obtain rfl := Option.some.inj ((eq_of_beq hrelated).symm.trans hfind)
    exact ⟨hid, trivial⟩
  exact ⟨hname, hposts, trivial⟩

theorem allByKey_wroteFirst (db : Database) (row : Row) :
    Step.AllByKey schema db wroteFirst author row := by
  have hplain : ∀ x ∈ schema.members author, x.isLinks = false := by decide +kernel
  refine ⟨trivial, fun r x target _ hx _ => ⟨?_, fun other _ _ => ⟨trivial, trivial⟩⟩, trivial⟩
  exact Schema.pairsByKey_of_not_isLinks (hplain x hx.1) author row

theorem relationTable_post : (schema.relationTable post).result = .ok [("author", toAuthor)] :=
  eq_ok_of_toOption (by decide +kernel)

end Blog

open Blog in
/-- Of two posts with an author one has an author without a name, who is turned down. -/
theorem Step.fetch_apply_related_blog : ∃ narrowed,
    ((related (.relation toAuthor) wroteFirst).apply schema (.all post) {}).1.result =
      .ok narrowed ∧
    ((related (.name "author") wroteFirst).apply schema (.all post) {}).1.result = .ok narrowed ∧
    narrowed.fetch signatures = .ok [[("id", .int 1), ("author_id", .int 7)]] ∧
    ∀ db remaining, narrowed.fetch db = .ok remaining →
      ∃ fetched keep, (Query.all post).fetch db = .ok fetched ∧ remaining = fetched.filter keep ∧
        ∀ row, (keep row = true ↔ ∃ other ∈ db.visible author,
            schema.Linked db (.forward post (post.fields[1])) row other ∧
              AllMet schema db wroteFirst author other) ∧
          (row.cell "author_id" = .null → keep row = false) := by
  have hmakes : schema.Makes post (.forward post (post.fields[1])) toAuthor :=
    ⟨by decide +kernel, eq_ok_of_toOption (by decide +kernel)⟩
  have hfound : Mapping.find? "author" [("author", toAuthor)] = some toAuthor := rfl
  have hpost : (Query.all post).model ∈ schema.models := by decide +kernel
  obtain ⟨_, hmade⟩ := fetch_apply_related coherent hpost (.new 0) relationTable_post hfound
  obtain ⟨target, near, hfind, hnear, hall⟩ := hmade _ hmakes (by decide)
  have hauthor : schema.find? toAuthor.related = some author := by decide +kernel
  obtain rfl := Option.some.inj (hauthor.symm.trans hfind)
  obtain rfl : post.fields[1] = near := Option.some.inj hnear
  cases hfound : (conditions schema wroteFirst author {}).1.result with
  | error e =>
      have hok : (conditions schema wroteFirst author {}).1.result.toOption.isSome = true := by
        decide +kernel
      rw [hfound] at hok
      cases hok
  | ok found =>
      obtain ⟨narrowed, hrelation, hname, hfetch⟩ := hall wroteFirst found allOver_wroteFirst hfound
      have hkept : ((related (.relation toAuthor) wroteFirst).apply schema (.all post)
          {}).1.result.toOption.bind (fun narrowed => (narrowed.fetch signatures).toOption) =
          some [[("id", .int 1), ("author_id", .int 7)]] := by
        decide +kernel
      rw [hrelation] at hkept
      refine ⟨narrowed, hrelation, hname, eq_ok_of_toOption hkept, fun db remaining h => ?_⟩
      obtain ⟨fetched, keep, hfetched, hremaining, hkeep⟩ := hfetch db remaining h
      refine ⟨fetched, keep, hfetched, hremaining, fun row => ⟨?_, (hkeep row).2⟩⟩
      exact (hkeep row).1 (Schema.pairsByKey_of_not_isLinks rfl post row)
        fun other _ _ => allByKey_wroteFirst db other

open Stock in
/-- By pairs that hold the codes of items a step from an item finds no store. -/
theorem Step.not_fetch_apply_stores : ∃ table narrowed,
    (schema (some "code")).Coherent ∧
    ((schema (some "code")).relationTable item).result = .ok table ∧
    Mapping.find? "stores" table = some toStores ∧
    (schema (some "code")).Makes item (.forward item stores) toStores ∧
    ((related (.relation toStores) []).apply (schema (some "code")) (.all item) {}).1.result =
      .ok narrowed ∧
    (Query.all item).fetch shelf = .ok [[("id", .int 1), ("code", .text "ax")]] ∧
    narrowed.fetch shelf = .ok [] ∧
    [("id", .int 2)] ∈ shelf.visible store ∧
    (schema (some "code")).Linked shelf (.forward item stores)
      [("id", .int 1), ("code", .text "ax")] [("id", .int 2)] := by
  have htable : ((schema (some "code")).relationTable item).result.toOption.bind
      (Mapping.find? "stores") = some toStores := by
    decide +kernel
  have hfetch : ((related (.relation toStores) []).apply (schema (some "code")) (.all item)
      {}).1.result.toOption.bind (fun narrowed => (narrowed.fetch shelf).toOption) = some [] := by
    decide +kernel
  obtain ⟨table, htable, hstores⟩ := Option.bind_eq_some_iff.1 htable
  obtain ⟨narrowed, hnarrowed, hfetch⟩ := Option.bind_eq_some_iff.1 hfetch
  exact ⟨table, narrowed, coherent (by simp), eq_ok_of_toOption htable, hstores,
    ⟨by decide +kernel, eq_ok_of_toOption (by decide +kernel)⟩, eq_ok_of_toOption hnarrowed,
    eq_ok_of_toOption (by decide +kernel), eq_ok_of_toOption hfetch, by decide +kernel,
    linked_stores⟩

end RowFilter
