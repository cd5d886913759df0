import WikiQuery.Description
import WikiQuery.JsonForm.Value

namespace WikiQuery

def Kind.ofJson? (j : Json) : Option Kind := j.name? false >>= Kind.ofName?

namespace Description

-- The JSON form of descriptions: an object with the kind and what belongs to it, which can be read
-- from an array as well. `inner` says that it stands within another description.

def tagged (kind : Kind) (members : List (String × Json)) : Json :=
  .object (("kind", .text kind.name) :: members)

mutual
def toJson : Description → Json
  | thing => tagged .thing []
  | inNamespace number => tagged .inNamespace [("namespace", .int number.toInt)]
  | inCategory categories =>
    tagged .inCategory [("categories", .array (categories.map Page.toJson))]
  | concept page => tagged .concept [("concept", page.toJson)]
  | value p comparator v =>
    tagged .value [("property", p.toJson), ("comparator", comparator.toJson), ("value", v.toJson)]
  | someProperty p inner =>
    tagged .someProperty [("property", p.toJson), ("description", toJson inner)]
  | conjunction parts => tagged .conjunction [("children", .array (listToJson parts))]
  | disjunction parts => tagged .disjunction [("children", .array (listToJson parts))]

def listToJson : List Description → List Json
  | [] => []
  | d :: ds => toJson d :: listToJson ds
end

def fields : Kind → List String
  | .thing => []
  | .inNamespace => ["namespace"]
  | .inCategory => ["categories"]
  | .concept => ["concept"]
  | .value => ["property", "comparator", "value"]
  | .someProperty => ["property", "description"]
  | .conjunction | .disjunction => ["children"]

def kinds : List (String × List String) := Kind.all.map fun kind => (kind.name, fields kind)

mutual
def ofJson? (inner : Bool) (j : Json) : Option Description := do
  let ⟨(name, r), _hr⟩ ← (j.variant? inner kinds).attach
  match ← Kind.ofName? name with
  | .thing => return thing
  | .inNamespace => return inNamespace (← r.required? "namespace" Json.int32?)
  | .inCategory => return inCategory (← r.required? "categories" (Json.list? Page.ofJson?))
  | .concept => return concept (← r.required? "concept" Page.ofJson?)
  | .value =>
    return value (← r.required? "property" Property.ofJson?)
      (← r.required? "comparator" Comparator.ofJson?) (← r.required? "value" (Value.ofJson? true))
  | .someProperty =>
    let p ← r.required? "property" Property.ofJson?
    let ⟨d, _h⟩ ← (r.field? "description").attach
    return someProperty p (← ofJson? true d)
  | .conjunction =>
    let ⟨parts, _h⟩ ← (r.required? "children" Json.array?).attach
    return conjunction (← listOfJson? parts)
  | .disjunction =>
    let ⟨parts, _h⟩ ← (r.required? "children" Json.array?).attach
    return disjunction (← listOfJson? parts)
termination_by sizeOf j
decreasing_by
  · exact Json.sizeOf_variant? _hr _h
  all_goals
    obtain ⟨v, hv, hlt⟩ := Json.sizeOf_required?_array? _h
    exact Nat.lt_trans hlt (Json.sizeOf_variant? _hr hv)

def listOfJson? (items : List Json) : Option (List Description) := do
  match items with
  | [] => return []
  | j :: rest => return (← ofJson? true j) :: (← listOfJson? rest)
termination_by sizeOf items
end

end Description

end WikiQuery
