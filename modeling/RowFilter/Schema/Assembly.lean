import RowFilter.Fault
import RowFilter.Schema.Names
import RowFilter.Schema.Precedence

/-!
Schemas from definitions. A definition gives a model's own fields and the names of the models it
builds on, and `Assembly.add` makes a draft of it, going through all models it builds on by
precedence. From an abstract one named in the definition the draft copies fields; to a concrete one
it gets a parent link, a unique reference; a proxy gets neither, having the table of the model it
stands for. A field that the model has already from elsewhere is not copied, and one that it
declares must not be a field of a concrete model too.

A model whose fields hold no key takes its first parent link for one, or else gets the field `id`.
A many-to-many field gets a model of its own for its pairs if it names none.
-/

namespace RowFilter

/-- The definition of a model. The empty name of a table is none. -/
structure ModelDef where
  app : String
  name : String
  fields : List Field
  table : Option String := none
  defaultRelatedName : Option String := none
  bases : List String := []
  isAbstract : Bool := false
  isProxy : Bool := false
  isListed : Bool := true
  key : Option String := none
  hiddenBy : Option String := none

/-- A field and the serial number that orders the fields of a model. -/
abbrev SerialField := Int × Field

/-- A model in the making. An abstract one is kept only for what builds on it. -/
structure Draft where
  model : Model
  /-- The keys of the models it builds on by precedence, itself first. -/
  order : List String
  fields : List SerialField
  /-- The keys of the concrete models it builds on, each with the name of the link to it. -/
  parents : Mapping (Option String)
  isAbstract : Bool

/-- What a model has so far, while those it builds on are gone through. -/
structure Parts where
  fields : List SerialField
  parents : Mapping (Option String) := []
  /-- Names of what the model has from others. -/
  inherited : List String := []
  /-- How many fields models were given that they do not declare. -/
  given : Int

/-- The drafts so far, and how many fields they declare and how many they were given. -/
structure Assembly where
  idType : String
  drafts : List Draft := []
  declared : Int := 0
  given : Int := 0

def idField (typeName : String) : Field :=
  { name := "id", kind := .column .integer typeName, isKey := true }

def Model.parentLink (parent : Model) : Field :=
  { name := parent.lowerName ++ "_ptr", kind := .reference true parent.fullName none true }

/-- The names by which a row has a field. -/
def Field.attributes (f : Field) : List String :=
  [f.name, f.columnName]

namespace ModelDef

def modelKey (d : ModelDef) : String :=
  d.key.getD (d.app ++ "." ++ d.name)

def blank (d : ModelDef) : Model :=
  let table := match d.table with
    | none | some "" => d.app ++ "_" ++ Text.lower d.name
    | some table => table
  { key := d.modelKey, app := d.app, name := d.name, table, fields := []
    lineage := [d.modelKey], concrete := d.modelKey, isProxy := d.isProxy, isListed := d.isListed
    defaultRelatedName := d.defaultRelatedName, hiddenBy := d.hiddenBy }

def checkNames (d : ModelDef) (f : Field) : Except Fault Unit :=
  if d.isAbstract then .ok ()
  else (d.blank.checkNames f).mapError fun fault => .definition (.name fault)

def declares (d : ModelDef) (name : String) : Bool :=
  d.fields.any (·.name == name)

end ModelDef

namespace Parts

def addField (parts : Parts) (field : SerialField) : Parts :=
  { parts with fields := parts.fields ++ [field] }

def addParent (parts : Parts) (key : String) (link : Option String) : Parts :=
  { parts with parents := Mapping.insert key link parts.parents }

def has (parts : Parts) (name : String) : Bool :=
  parts.fields.any fun (_, f) => f.attributes.contains name

def copyFields (d : ModelDef) (parts : Parts) (base : Draft) : Except Fault Parts :=
  (base.fields.filter (!·.2.isGeneric)).foldlM (fun parts field =>
    if parts.has field.2.name || parts.inherited.contains field.2.name then .ok parts
    else (fun _ => parts.addField field) <$> d.checkNames field.2) parts

/-- Copies the generic fields of a model. Each is a new field wherever it is copied to. -/
def copyGeneric (d : ModelDef) (parts : Parts) (base : Draft) : Except Fault Parts :=
  (base.fields.filter (·.2.isGeneric)).foldlM (fun parts field =>
    if !d.declares field.2.name then .ok (parts.addField field)
    else if base.isAbstract then .ok parts
    else .error (.definition (.fieldClash field.2.name d.name base.model.name))) parts

end Parts

/-- Fields in order of their serial numbers: local ones, then many-to-many links, then generic
ones as they were added. -/
def orderFields (fields : List SerialField) : List SerialField :=
  let sorted (kind : Field → Bool) : List SerialField :=
    (fields.filter (kind ·.2)).mergeSort fun a b => a.1 ≤ b.1
  sorted Field.isLocal ++ sorted Field.isLinks ++ fields.filter (·.2.isGeneric)

def markKey (name : String) (fields : List SerialField) : List SerialField :=
  fields.map fun (serial, f) => (serial, { f with isKey := f.name == name })

namespace Assembly

def schema (a : Assembly) : Schema :=
  { models := (a.drafts.filter (!·.isAbstract)).map (·.model) }

def draft? (a : Assembly) (key : String) : Option Draft :=
  a.drafts.find? (·.model.key == key)

def concrete (a : Assembly) (d : Draft) : Draft :=
  (a.draft? d.model.concrete).getD d

/-- The draft that a base of a definition names: one of the same app if there is one. -/
def base? (a : Assembly) (app base : String) : Option Draft :=
  match Text.pieces '.' base with
  | [app, name] => a.drafts.find? fun d => d.model.app == app && d.model.name == name
  | _ =>
    (a.drafts.find? fun d => d.model.app == app && d.model.name == base).orElse fun _ =>
      a.drafts.find? (·.model.name == base)

/-- The names of what a draft has itself: its fields, and the links that lead to it. -/
def attributes (a : Assembly) (d : Draft) : List String :=
  d.fields.flatMap (·.2.attributes) ++ (a.schema.linksTo d.model).filterMap fun
    | .reverse source f target =>
      let holder := if f.isLinks then target.key else target.concrete
      if holder = d.model.key && !source.hidesBack f then some (source.accessor f) else none
    | .forward .. => none

/-- The name by which the rows of a model are found, which a model takes from a concrete one that it
builds on or else has itself. -/
def rowsName : String := "objects"

def rootName : String := "Model"

def precedence (a : Assembly) (bases : List Draft) : Except Fault (List String) :=
  match bases.find? fun b => 1 < bases.countP (·.model.key == b.model.key) with
  | some base => .error (.definition (.repeatedBase base.model.name))
  | none =>
    let direct := if bases.isEmpty then [[rootName]] else [bases.map (·.model.key)]
    (mergeOrders (bases.map (·.order) ++ direct)).mapError fun blocked =>
      .definition (.noOrder (blocked.map fun key =>
        ((a.draft? key).map (·.model.name)).getD key))

/-- The model that a proxy on some bases stands for. -/
def standsFor (a : Assembly) (name : String) (bases : List Draft) : Except Fault Draft := do
  let found ← bases.foldlM (fun (found : Option Draft) base =>
    if base.isAbstract then
      if base.fields.any (·.2.isLocal) || !base.parents.isEmpty then
        .error (Fault.definition (.fieldsForProxy name))
      else .ok found
    else match found with
      | none => .ok (some base)
      | some other =>
        if base.model.concrete = other.model.concrete then .ok found
        else .error (.definition (.manyBasesForProxy name))) none
  match found with
  | some base => .ok (a.concrete base)
  | none => .error (.definition (.noBaseForProxy name))

def standsFor? (a : Assembly) (d : ModelDef) (bases : List Draft) : Except Fault (Option Draft) :=
  if d.isProxy then some <$> a.standsFor d.name bases else .ok none

/-- The links to concrete models that abstract bases bring along. -/
def broughtLinks (bases : List Draft) : Mapping (Option String) :=
  (bases.filter (·.isAbstract)).flatMap (·.parents)

def join (a : Assembly) (d : ModelDef) (bases : List Draft) (order : List String) (parts : Parts)
    (base : Draft) : Except Fault Parts :=
  let parent := base.model
  match Mapping.find? parent.key (broughtLinks bases) with
  | some link => .ok (parts.addParent parent.key link)
  | none =>
    let link := parent.parentLink
    let joined := parts.addParent parent.key (some link.name)
    if d.isProxy then .ok (parts.addParent parent.key none)
    else if d.declares link.name then
      .error (.definition (.linkClash link.name d.name parent.name))
    else if parts.has link.name
        || (order.filterMap a.draft?).any fun other => (a.attributes other).contains link.name then
      .ok { joined with given := parts.given + 1 }
    else .ok { joined.addField (-1 - parts.given, link) with given := parts.given + 1 }

/-- Takes from a model what a definition that builds on it gets. -/
def build (a : Assembly) (d : ModelDef) (bases : List Draft) (order : List String) (parts : Parts)
    (other : Draft) : Except Fault Parts := do
  if bases.all (·.model.key != other.model.key) then
    return { parts with inherited := parts.inherited ++ a.attributes other }
  else if other.isAbstract then
    let copied ← parts.copyFields d other
    { copied with parents := Mapping.update copied.parents other.parents }.copyGeneric d other
  else
    let names := other.model.ownFields.map (·.name)
    match names.find? d.declares with
    | some name => throw (.definition (.fieldClash name d.name other.model.name))
    | none =>
      let concrete := a.concrete other
      let parts := { parts with inherited := parts.inherited ++ names }
      (← a.join d bases order parts concrete).copyGeneric d concrete

/-- The fields that a model has in the end, with its key among them, and how many were given by
then. -/
def keyed (a : Assembly) (d : ModelDef) (parts : Parts) : List SerialField × Int :=
  let keyName? := ((parts.fields.find? (·.2.isKey)).map (·.2.name)).orElse fun _ =>
    parts.parents.head?.bind (·.2)
  if d.isAbstract || d.isProxy then (parts.fields, parts.given)
  else match keyName? with
    | some name => (markKey name parts.fields, parts.given)
    | none => (parts.fields ++ [(-1 - parts.given, idField a.idType)], parts.given + 1)

/-- The draft that is made of the parts of a model, which may stand for another. -/
def finish (a : Assembly) (d : ModelDef) (order : List String) (stands? : Option Draft)
    (parts : Parts) : Draft :=
  let fields := orderFields (a.keyed d parts).1
  let lineage := parts.parents.flatMap fun (key, _) =>
    ((a.draft? key).map (·.model.lineage)).getD []
  let blank := d.blank
  let model : Model :=
    { blank with
      table := (stands?.map (·.model.table)).getD blank.table
      fields := fields.map (·.2)
      lineage := lineage.eraseDups ++ [d.modelKey]
      concrete := (stands?.map (·.model.key)).getD d.modelKey }
  { model, order := d.modelKey :: order, fields, parents := parts.parents
    isAbstract := d.isAbstract }

/-- The draft of a definition, and how many fields were given by then. -/
def draft (a : Assembly) (d : ModelDef) : Except Fault (Draft × Int) := do
  let bases := d.bases.filterMap (a.base? d.app)
  let order ← a.precedence bases
  let own := Mapping.ofList (d.fields.zipIdx.map fun (f, k) => (f.name, a.declared + k, f))
  own.forM fun (_, _, f) => d.checkNames f
  let stands? ← a.standsFor? d bases
  let parts ← (order.filterMap a.draft?).foldlM (a.build d bases order)
    { fields := own.map (·.2), given := a.given }
  let made := a.finish d order stands? parts
  if !d.isAbstract && !(order.filterMap a.draft?).any (!·.isAbstract)
      && made.fields.any (fun (_, f) => f.isLocal && f.name == rowsName) then
    throw (.definition (.fieldForRows d.name))
  return (made, (a.keyed d parts).2)

def pairsName (m : Model) (f : Field) : String :=
  m.name ++ "_" ++ f.name

/-- The definition of the model for the pairs of a many-to-many field, which refers to both sides
and is seen by neither. -/
def pairsDef (m : Model) (f : Field) (target : String) : ModelDef :=
  let side (name target : String) : Field :=
    { name, kind := .reference false target none false, relatedName := pairsName m f ++ "+" }
  let other := Text.lower (if target = "self" then m.name else (Text.pieces '.' target).getLastD "")
  let target := if target = "self" then m.fullName else target
  let names :=
    if other = m.lowerName then ("from_" ++ other, "to_" ++ other) else (m.lowerName, other)
  { app := m.app, name := pairsName m f, key := m.key ++ "_" ++ f.name
    table := m.table ++ "_" ++ f.name, isListed := m.isListed
    fields := [side names.1 m.fullName, side names.2 target] }

/-- The draft with a model named for the pairs of each many-to-many field, and the definitions of
the models that have to be made for that. -/
def namePairs (d : Draft) : Draft × List ModelDef :=
  let named (f : Field) : Field :=
    match f.kind with
    | .links target symmetrical none =>
      { f with kind := .links target symmetrical (some (pairsName d.model f)) }
    | _ => f
  let defs := d.model.fields.filterMap fun f =>
    match f.kind with
    | .links target _ none => some (pairsDef d.model f target)
    | _ => none
  let fields := d.fields.map fun (serial, f) => (serial, named f)
  ({ d with fields, model := { d.model with fields := fields.map (·.2) } }, defs)

/-- Whether a field of `m` links its own rows both ways without being told so by its target's name,
so that the other side has no name of its own. -/
def lacksSide (s : Schema) (m : Model) (f : Field) : Bool :=
  match f.kind with
  | .links target symmetrical _ =>
    symmetrical.getD (target == "self") && !m.isSymmetrical f && !m.hidesBack f
      && ((s.target? m target).map (·.key)) == some m.key
  | _ => false

def add (a : Assembly) (d : ModelDef) : Except Fault Assembly := do
  let (draft, given) ← a.draft d
  let a := { a with declared := a.declared + d.fields.length, given }
  if d.isAbstract then return { a with drafts := a.drafts ++ [draft] }
  else
    let (draft, defs) := namePairs draft
    let a ← defs.foldlM (fun a pairs => do
      let (made, given) ← a.draft pairs
      return { a with drafts := a.drafts ++ [made], declared := a.declared + 2, given }) a
    let a := { a with drafts := a.drafts ++ [draft] }
    if draft.model.fields.any (lacksSide a.schema draft.model) then
      throw (.definition .unnamedSide)
    else return a

end Assembly

/-- The schema of definitions, in their order; `idType` names the type of the field `id` in
messages. -/
def Schema.ofDefs (idType : String) (apps : List String) (defs : List ModelDef) :
    Except Fault Schema := do
  let a ← defs.foldlM Assembly.add { idType }
  return { a.schema with apps }

end RowFilter
