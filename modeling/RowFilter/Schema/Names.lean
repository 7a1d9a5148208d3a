import RowFilter.Schema.Model
import RowFilter.Text.Template

/-!
The names in a schema. A model has the fields of its lineage, and sees links from other models under
names of their own: one for the accessor, by which a relation is called, and one for queries. Both
follow from the names given with the field, or for all links of a model, or from the model's name;
a name that ends in a plus sign hides the link from the other side.
-/

namespace RowFilter

def Model.nameValues (m : Model) : Mapping String :=
  [("class", m.lowerName), ("model_name", m.lowerName), ("app_label", Text.lower m.app)]

def Model.queryValues (m : Model) : Mapping String :=
  [("class", m.lowerName), ("app_label", Text.lower m.app)]

/-- A name as it is given; the empty name is none. -/
def givenName? (name? : Option String) : Option String :=
  name?.filter (· ≠ "")

/-- A name filled in, or as it is if it cannot be. -/
def filledName (values : Mapping String) (name : String) : String :=
  match Template.fill values name with
  | .ok filled => filled
  | .error _ => name

def isHiddenName (name : String) : Bool :=
  name.toList.getLast? == some '+'

def Model.isSymmetrical (m : Model) (f : Field) : Bool :=
  match f.kind with
  | .links target symmetrical _ =>
    symmetrical.getD (target == "self") && (target == "self" || target == m.name)
  | _ => false

/-- The name that a link of `m` that the other side must not see goes by. -/
def Model.hiddenName? (m : Model) (f : Field) : Option String :=
  if f.isGeneric then some "+"
  else if m.isSymmetrical f then some (f.name ++ "_rel_+")
  else if f.isLinks && (f.relatedName.map isHiddenName).getD false then
    some ("_" ++ m.app ++ "_" ++ m.lowerName ++ "_" ++ f.name ++ "_+")
  else none

/-- The name given to the other side of a link of `m`, before it is filled in: by the field or for
the whole model. -/
def Model.nameTemplate? (m : Model) (f : Field) : Option String :=
  (givenName? f.relatedName).orElse fun _ => givenName? m.defaultRelatedName

/-- The name given to the other side of a link of `m`. Pairs that the other side does not see go by
a name that tells them from all others. -/
def Model.relatedName? (m : Model) (f : Field) : Option String :=
  (m.hiddenName? f).orElse fun _ => (m.nameTemplate? f).map (filledName m.nameValues)

def Model.checkNames (m : Model) (f : Field) : Except TemplateFault Unit := do
  if f.isRelation && (m.hiddenName? f).isNone then
    discard ((m.nameTemplate? f).mapM (Template.fill m.nameValues))
  discard ((givenName? f.relatedQueryName).mapM (Template.fill m.queryValues))

def Model.hidesBack (m : Model) (f : Field) : Bool :=
  ((m.relatedName? f).map isHiddenName).getD false

def Model.accessor (m : Model) (f : Field) : String :=
  (m.relatedName? f).getD (if f.isUnique then m.lowerName else m.lowerName ++ "_set")

def Model.queryName (m : Model) (f : Field) : String :=
  (((givenName? f.relatedQueryName).map (filledName m.queryValues)).orElse fun _ =>
    m.relatedName? f).getD m.lowerName

/-- A field as a model has it: its own or inherited, or seen from the other side of a link. -/
inductive Member where
  | forward (owner : Model) (field : Field)
  | reverse (source : Model) (field : Field) (target : Model)

namespace Member

def isHidden : Member → Bool
  | forward .. => false
  | reverse source f _ => source.hidesBack f

/-- Whether `m` lists the member: the link by which another model builds on one is listed only for
the latter. -/
def isListedFor (m : Model) : Member → Bool
  | forward .. => true
  | reverse _ f target => !f.isParentLink || target.key == m.concrete

def queryNames : Member → List String
  | forward _ f => if f.columnName = f.name then [f.name] else [f.name, f.columnName]
  | reverse source f _ => [source.queryName f]

end Member

namespace Schema

/-- The links of all models that lead to the concrete model `m`, in order of definition of the
models, and of each model references before many-to-many links. -/
def linksTo (schema : Schema) (m : Model) : List Member :=
  schema.models.flatMap fun source =>
    source.ownFields.filterMap fun f => do
      let target ← schema.target? source (← f.target?)
      if target.concrete = m.concrete then some (.reverse source f target) else none

def reverseMembers (schema : Schema) (m : Model) : List Member :=
  (schema.lineage m).flatMap fun base =>
    if base.isProxy then [] else (schema.linksTo base).filter (Member.isListedFor m)

/-- The fields of `m` in order: for each model of the lineage what it sees of other models' links,
if it is concrete, and its own fields; at last the generic fields of `m`. -/
def members (schema : Schema) (m : Model) : List Member :=
  (schema.lineage m).flatMap (fun base =>
    (if base.isProxy then []
      else (schema.linksTo base).filter fun x => !x.isHidden && x.isListedFor m)
      ++ base.ownFields.map (.forward base))
    ++ (m.fields.filter Field.isGeneric).map (.forward m)

/-- The field of the lineage of `m`, or generic field of `m`, with a name or column name, the last
one of a name winning. -/
def forward? (schema : Schema) (m : Model) (name : String) : Option (Model × Field) :=
  let own := (schema.lineage m).flatMap fun base => base.ownFields.map fun f => (base, f)
  let generic := (m.fields.filter Field.isGeneric).map fun f => (m, f)
  (own ++ generic).reverse.find? fun (_, f) => f.name == name || f.columnName == name

/-- The link of another model that queries on `m` know under a name, the last one of a name winning.
Hidden links have names too. -/
def reverse? (schema : Schema) (m : Model) (name : String) : Option (Model × Field) :=
  (schema.reverseMembers m).reverse.findSome? fun
    | .reverse source f _ => if source.queryName f = name then some (source, f) else none
    | .forward .. => none

/-- The member of `m` that queries know under a name: a field, or else a link of another model. The
key of any model goes by the name `pk` as well. -/
def member? (schema : Schema) (m : Model) (name : String) : Option Member :=
  let name := if name = "pk" then ((schema.keyField? m).map (·.name)).getD name else name
  match schema.forward? m name with
  | some (owner, f) => some (.forward owner f)
  | none => (schema.reverse? m name).map fun (source, f) => .reverse source f m

def referencesTo (schema : Schema) (through target : Model) : List Field :=
  through.fields.filter fun f =>
    match f.kind with
    | .reference _ name _ _ =>
      (schema.target? through name).map (·.concrete) == some target.concrete
    | _ => false

/-- The model that has the pairs of a many-to-many field of `source`, its reference to `source` and
the one to the target. If both sides are one model, the first reference is to the side that has the
field. -/
def pairing? (schema : Schema) (source target : Model) (f : Field) :
    Option (Model × Field × Field) :=
  match f.kind with
  | .links _ _ (some name) => do
    let through ← schema.target? source name
    let left ← (schema.referencesTo through source).head?
    let right ← (schema.referencesTo through target).find? (·.name ≠ left.name)
    return (through, left, right)
  | _ => none

def choices (schema : Schema) (m : Model) : List String :=
  ((schema.members m).flatMap Member.queryNames).eraseDups.mergeSort fun a b => a ≤ b

end Schema

end RowFilter
