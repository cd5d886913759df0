import WikiQuery.Json.Basic
import WikiQuery.Number.Nearest
import WikiQuery.Resource
import WikiQuery.SortKey
import WikiQuery.Subquery
import WikiQuery.Value

namespace WikiQuery

-- The JSON forms of variables, resources, properties and values. They are written as objects, and
-- what is written as an object can be read from an array as well. `inner` says that a form stands
-- within an object that has a kind.

def Variable.toJson (v : Variable) : Json := .text v.name

def Variable.ofJson? (j : Json) : Option Variable := j.text?.map (⟨·⟩)

def Page.members (p : Page) : List (String × Json) :=
  [("title", .text p.title), ("namespace", .int p.space.toInt)]

def Page.toJson (p : Page) : Json := .object p.members

def Page.fields : List String := ["title", "namespace"]

def Page.ofJson? (j : Json) : Option Page := do
  let r ← j.record? Page.fields
  return ⟨← r.required? "title" Json.text?, ← r.required? "namespace" Json.int32?⟩

def Vocabulary.toJson (v : Vocabulary) : Json :=
  .object [("prefix", .text v.label), ("uri", .text v.uri)]

def Vocabulary.ofJson? (j : Json) : Option Vocabulary := do
  let r ← j.record? ["prefix", "uri"]
  return ⟨← r.required? "prefix" Json.text?, ← r.required? "uri" Json.text?⟩

def Resource.toJson : Resource → Json
  | .page p => .object (("kind", .text "page") :: p.members)
  | .external v name =>
    .object [("kind", .text "external"), ("vocabulary", v.toJson), ("local", .text name)]

def Resource.kinds : List (String × List String) :=
  [("page", Page.fields), ("external", ["vocabulary", "local"])]

def Resource.ofJson? (inner : Bool) (j : Json) : Option Resource := do
  let (kind, r) ← j.variant? inner Resource.kinds
  if kind = "page" then return .page (← Page.ofJson? r)
  else if kind = "external" then
    return .external (← r.required? "vocabulary" Vocabulary.ofJson?)
      (← r.required? "local" Json.text?)
  else none

def Property.toJson (p : Property) : Json :=
  .object <| [("key", .text p.key), ("inverse", .bool p.inverse)] ++
    match p.vocabulary with
    | some v => [("vocabulary", v.toJson)]
    | none => []

def Property.ofJson? (j : Json) : Option Property := do
  let r ← j.record? ["key", "inverse", "vocabulary"]
  return {
    key := ← r.required? "key" Json.text?
    inverse := ← r.fieldOr "inverse" false Json.bool?
    vocabulary := ← r.optional? "vocabulary" Vocabulary.ofJson? }

def Datatype.toJson (t : Datatype) : Json := .text t.name

def Datatype.ofJson? (inner : Bool) (j : Json) : Option Datatype :=
  j.name? inner >>= Datatype.ofName?

-- A number that is not finite has no JSON form and becomes null.
def Number.toJson (x : Number) : Json := if x.isFinite then .number x else .null

-- A whole number stands for the nearest floating-point number.
def Number.ofJson? : Json → Option Number
  | .number x => some x
  | .int i => Number.ofDecimal (i < 0) i.natAbs 0
  | _ => none

def Value.toJson (v : Value) : Json :=
  let content := match v with
    | .page r => r.toJson
    | .text s => .text s
    | .number x => x.toJson
    | .boolean b => .bool b
  .object [("type", v.datatype.toJson), ("value", content)]

-- The type and the content of a value, from an object or from an array of the two. In the array the
-- type is read as kinds are.
def Value.parts? (inner : Bool) : Json → Option (Datatype × Json)
  | .object members => do
    let datatype ← (Json.object members).required? "type" (Datatype.ofJson? inner)
    return (datatype, ← (Json.object members).field? "value")
  | .array [tag, content] => do
    let name ← tag.kind? inner (Datatype.all.map Datatype.name)
    return (← Datatype.ofName? name, content)
  | _ => none

def Value.ofJson? (inner : Bool) (j : Json) : Option Value := do
  match ← Value.parts? inner j with
  | (.page, content) => (Resource.ofJson? inner content).map .page
  | (.text, content) => content.text?.map .text
  | (.number, content) => (Number.ofJson? content).map .number
  | (.boolean, content) => content.bool?.map .boolean

def Comparator.toJson (c : Comparator) : Json := .text c.name

-- A comparator stands only within a description.
def Comparator.ofJson? (j : Json) : Option Comparator := j.name? true >>= Comparator.ofName?

-- The JSON forms of sub-queries and of their table.

def Json.ofNat (n : Nat) : Json := .int n

def SubqueryId.toJson (id : SubqueryId) : Json := .ofNat id.index

def SubqueryId.ofJson? (j : Json) : Option SubqueryId := j.natural?.map (⟨·⟩)

def Subquery.toJson : Subquery → Json
  | .categories ids depth =>
    .object [("kind", .text "category_hierarchy"), ("categories", .array (ids.map .ofNat)),
      ("depth", .ofNat depth.toNat)]
  | .property p id depth =>
    .object [("kind", .text "property_hierarchy"), ("property", p.toJson), ("id", .ofNat id),
      ("depth", .ofNat depth.toNat)]

def Subquery.kinds : List (String × List String) :=
  [("category_hierarchy", ["categories", "depth"]),
    ("property_hierarchy", ["property", "id", "depth"])]

def Subquery.ofJson? (j : Json) : Option Subquery := do
  let (kind, r) ← j.variant? false Subquery.kinds
  if kind = "category_hierarchy" then
    return .categories (← r.required? "categories" (Json.list? Json.natural?))
      (← r.required? "depth" Json.uint32?)
  else if kind = "property_hierarchy" then
    return .property (← r.required? "property" Property.ofJson?)
      (← r.required? "id" Json.natural?) (← r.required? "depth" Json.uint32?)
  else none

def SubqueryTable.toJson (t : SubqueryTable) : Json :=
  .object [("entries", .array (t.entries.map Subquery.toJson))]

def SubqueryTable.ofJson? (j : Json) : Option SubqueryTable := do
  let r ← j.record? ["entries"]
  return ⟨← r.required? "entries" (Json.list? Subquery.ofJson?)⟩

-- The JSON forms of requested sorts and of sort keys.

def Direction.toJson (d : Direction) : Json := .text d.name

def Direction.ofJson? (j : Json) : Option Direction := j.name? false >>= Direction.ofName?

def RequestedSort.toJson (s : RequestedSort) : Json :=
  .object [("key", .text s.key), ("direction", s.direction.toJson)]

def RequestedSort.ofJson? (j : Json) : Option RequestedSort := do
  let r ← j.record? ["key", "direction"]
  return ⟨← r.required? "key" Json.text?, ← r.fieldOr "direction" .asc Direction.ofJson?⟩

namespace KeyMap

variable {α : Type}

-- A map as an object whose members are in the order of their keys.
def toJson (m : KeyMap α) (write : α → Json) : Json :=
  .object (m.entries.map fun (key, value) => (key, write value))

def ofJson? (read : Json → Option α) (j : Json) : Option (KeyMap α) := do
  let members ← j.object?
  return KeyMap.ofList (← members.entries.mapM fun (key, value) => (read value).map (key, ·))

end KeyMap

def SortKeys.toJson (keys : SortKeys) : Json := KeyMap.toJson keys Direction.toJson

def SortKeys.ofJson? (j : Json) : Option SortKeys := KeyMap.ofJson? Direction.ofJson? j

end WikiQuery
