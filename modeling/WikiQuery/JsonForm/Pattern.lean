import WikiQuery.JsonForm.Filter
import WikiQuery.JsonForm.Value
import WikiQuery.Pattern

namespace WikiQuery

-- The JSON forms of terms, clauses and patterns. A pattern is an object with its clauses. Terms
-- stand only within clauses.

def Term.toJson : Term → Json
  | .entity v => .object [("kind", .text "variable"), ("variable", v.toJson)]
  | .resource r => .object [("kind", .text "resource"), ("resource", r.toJson)]

def Term.kinds : List (String × List String) :=
  [("variable", ["variable"]), ("resource", ["resource"])]

def Term.ofJson? (j : Json) : Option Term := do
  let (kind, r) ← j.variant? true Term.kinds
  if kind = "variable" then return .entity (← r.required? "variable" Variable.ofJson?)
  else if kind = "resource" then return .resource (← r.required? "resource" (Resource.ofJson? true))
  else none

namespace Clause

-- A reference to a closure is written only if there is one.
def closureMember : Option SubqueryId → List (String × Json)
  | some id => [("hierarchy", id.toJson)]
  | none => []

def closureOfJson? (j : Json) : Option (Option SubqueryId) :=
  j.optional? "hierarchy" SubqueryId.ofJson?

def tagged (kind : String) (members : List (String × Json)) : Json :=
  .object (("kind", .text kind) :: members)

mutual
def toJson : Clause → Json
  | triple s p o closure =>
    tagged "triple" ([("subject", s.toJson), ("property", p.toJson), ("object", o.toJson)] ++
      closureMember closure)
  | hasValue s p closure =>
    tagged "has_value" ([("subject", s.toJson), ("property", p.toJson)] ++ closureMember closure)
  | inNamespace s number =>
    tagged "in_namespace" [("subject", s.toJson), ("namespace", .int number.toInt)]
  | inCategory s ids closure =>
    tagged "in_category" ([("subject", s.toJson), ("categories", .array (ids.map .ofNat))] ++
      closureMember closure)
  | sortKey s key => tagged "sort_key" [("subject", s.toJson), ("sort_variable", key.toJson)]
  | filter f => tagged "filter" [("filter", f.toJson)]
  | union groups => tagged "union" [("groups", .array (groupsToJson groups))]

def groupsToJson : List (List Clause) → List Json
  | [] => []
  | g :: gs => .object [("elements", .array (listToJson g))] :: groupsToJson gs

def listToJson : List Clause → List Json
  | [] => []
  | c :: cs => toJson c :: listToJson cs
end

def kinds : List (String × List String) :=
  [("triple", ["subject", "property", "object", "hierarchy"]),
    ("has_value", ["subject", "property", "hierarchy"]), ("in_namespace", ["subject", "namespace"]),
    ("in_category", ["subject", "categories", "hierarchy"]),
    ("sort_key", ["subject", "sort_variable"]), ("filter", ["filter"]), ("union", ["groups"])]

-- What the clauses of a pattern are read from.
def elements? (j : Json) : Option (List Json) := do
  let r ← j.record? ["elements"]
  r.required? "elements" Json.array?

theorem sizeOf_elements? {j : Json} {items : List Json} (h : elements? j = some items) :
    sizeOf items < sizeOf j := by
  obtain ⟨r, hr, h⟩ := Option.bind_eq_some_iff.mp h
  obtain ⟨v, hv, hlt⟩ := Json.sizeOf_required?_array? h
  exact Nat.lt_trans hlt (Json.sizeOf_record? hr hv)

mutual
def ofJson? (inner : Bool) (j : Json) : Option Clause := do
  let ⟨(kind, r), _hr⟩ ← (j.variant? inner kinds).attach
  if kind = "triple" then
    return triple (← r.required? "subject" Term.ofJson?) (← r.required? "property" Property.ofJson?)
      (← r.required? "object" Term.ofJson?) (← closureOfJson? r)
  else if kind = "has_value" then
    return hasValue (← r.required? "subject" Variable.ofJson?)
      (← r.required? "property" Property.ofJson?) (← closureOfJson? r)
  else if kind = "in_namespace" then
    return inNamespace (← r.required? "subject" Variable.ofJson?)
      (← r.required? "namespace" Json.int32?)
  else if kind = "in_category" then
    return inCategory (← r.required? "subject" Variable.ofJson?)
      (← r.required? "categories" (Json.list? Json.natural?)) (← closureOfJson? r)
  else if kind = "sort_key" then
    return sortKey (← r.required? "subject" Variable.ofJson?)
      (← r.required? "sort_variable" Variable.ofJson?)
  else if kind = "filter" then return filter (← r.required? "filter" (Filter.ofJson? true))
  else if kind = "union" then
    let ⟨groups, _h⟩ ← (r.required? "groups" Json.array?).attach
    return union (← groupsOfJson? groups)
  else none
termination_by sizeOf j
decreasing_by
  obtain ⟨v, hv, hlt⟩ := Json.sizeOf_required?_array? _h
  exact Nat.lt_trans hlt (Json.sizeOf_variant? _hr hv)

def groupsOfJson? (groups : List Json) : Option (List (List Clause)) := do
  match groups with
  | [] => return []
  | group :: rest =>
    let ⟨clauses, _h⟩ ← (elements? group).attach
    return (← listOfJson? true clauses) :: (← groupsOfJson? rest)
termination_by sizeOf groups
decreasing_by
  · have hlt := sizeOf_elements? _h
    simp only [List.cons.sizeOf_spec]
    omega
  · simp only [List.cons.sizeOf_spec]
    omega

def listOfJson? (inner : Bool) (clauses : List Json) : Option (List Clause) := do
  match clauses with
  | [] => return []
  | j :: rest => return (← ofJson? inner j) :: (← listOfJson? inner rest)
termination_by sizeOf clauses
end

end Clause

def Pattern.toJson (p : Pattern) : Json := .object [("elements", .array (Clause.listToJson p))]

def Pattern.ofJson? (inner : Bool) (j : Json) : Option Pattern :=
  Clause.elements? j >>= Clause.listOfJson? inner

end WikiQuery
