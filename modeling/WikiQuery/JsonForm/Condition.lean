import WikiQuery.Compile.Session
import WikiQuery.Condition
import WikiQuery.Json.Printer
import WikiQuery.JsonForm.Pattern
import WikiQuery.JsonForm.Value

namespace WikiQuery.Condition

-- The JSON form of conditions: one object with the form's kind, what belongs to it, and what goes
-- along with the condition. Empty attachments are left out, except whether the condition is safe. As
-- the members of two are put together in the object, conditions are not read from arrays.

def mapMember {α : Type} (key : String) (m : KeyMap α) (write : α → Json) :
    List (String × Json) :=
  if m.isEmpty then [] else [(key, m.toJson write)]

mutual
def toJson : Condition → Json
  | ⟨form, attachments⟩ => .object (formMembers form ++ attachmentMembers attachments)

def formMembers : Form Condition → List (String × Json)
  | .everything => [("kind", .text "true")]
  | .nothing => [("kind", .text "false")]
  | .pattern p => [("kind", .text "where"), ("pattern", p.toJson)]
  | .filter f => [("kind", .text "filter"), ("filter", f.toJson)]
  | .singleton r p =>
    [("kind", .text "singleton"), ("value", r.toJson), ("pattern", p.toJson)]
  | .alternatives branches =>
    [("kind", .text "alternatives"), ("branches", .array (listToJson branches))]

def attachmentMembers : Attachments Condition → List (String × Json)
  | ⟨vocabularies, weak, sortVariables, safe⟩ =>
    mapMember "namespaces" vocabularies .text ++
      (if weak.isEmpty then [] else [("weak", .array (listToJson weak))]) ++
      mapMember "order_variables" sortVariables Variable.toJson ++ [("safe", .bool safe)]

def listToJson : List Condition → List Json
  | [] => []
  | c :: cs => toJson c :: listToJson cs
end

-- The kinds of forms.
inductive FormKind where
  | everything
  | nothing
  | pattern
  | filter
  | singleton
  | alternatives

def formKinds : List String :=
  ["true", "false", "where", "filter", "singleton", "alternatives"]

def formKind? (name : String) : Option FormKind :=
  if name = "true" then some .everything
  else if name = "false" then some .nothing
  else if name = "where" then some .pattern
  else if name = "filter" then some .filter
  else if name = "singleton" then some .singleton
  else if name = "alternatives" then some .alternatives
  else none

mutual
def ofJson? (j : Json) : Option Condition := do
  return ⟨← formOfJson? j, ← attachmentsOfJson? j⟩
termination_by (sizeOf j, 1)

def formOfJson? (j : Json) : Option (Form Condition) := do
  match ← j.required? "kind" (Json.kind? true formKinds) >>= formKind? with
  | .everything => return .everything
  | .nothing => return .nothing
  | .pattern => return .pattern (← j.required? "pattern" (Pattern.ofJson? true))
  | .filter => return .filter (← j.required? "filter" (Filter.ofJson? true))
  | .singleton =>
    return .singleton (← j.required? "value" (Resource.ofJson? true))
      (← j.required? "pattern" (Pattern.ofJson? true))
  | .alternatives =>
    let ⟨branches, _h⟩ ← (j.required? "branches" Json.array?).attach
    return .alternatives (← listOfJson? branches)
termination_by (sizeOf j, 0)
decreasing_by
  obtain ⟨v, hv, hlt⟩ := Json.sizeOf_required?_array? _h
  exact Prod.Lex.left _ _ (Nat.lt_trans hlt (Json.sizeOf_field? hv))

def attachmentsOfJson? (j : Json) : Option (Attachments Condition) := do
  let vocabularies ← j.fieldOr "namespaces" ∅ (KeyMap.ofJson? Json.text?)
  let weak ← match _h : j.field? "weak" with
    | none => pure []
    | some (.array weak) => listOfJson? weak
    | some _ => none
  let sortVariables ← j.fieldOr "order_variables" ∅ (KeyMap.ofJson? Variable.ofJson?)
  return { vocabularies, weak, sortVariables, safe := ← j.fieldOr "safe" false Json.bool? }
termination_by (sizeOf j, 0)
decreasing_by
  have := Json.sizeOf_field? _h
  simp only [Json.array.sizeOf_spec] at this
  exact Prod.Lex.left _ _ (by omega)

def listOfJson? (items : List Json) : Option (List Condition) := do
  match items with
  | [] => return []
  | j :: rest => return (← ofJson? j) :: (← listOfJson? rest)
termination_by (sizeOf items, 0)
end

end WikiQuery.Condition

namespace WikiQuery.Query

def toJson (q : Query) : Json :=
  .object [("condition", q.condition.toJson), ("subqueries", q.subqueries.toJson),
    ("sort_keys", q.sortKeys.toJson), ("result_variable", q.result.toJson)]

def ofJson? (j : Json) : Option Query := do
  let r ← j.record? ["condition", "subqueries", "sort_keys", "result_variable"]
  return ⟨← r.required? "condition" Condition.ofJson?,
    ← r.required? "subqueries" SubqueryTable.ofJson?, ← r.required? "sort_keys" SortKeys.ofJson?,
    ← r.required? "result_variable" Variable.ofJson?⟩

-- The text that is handed to whoever runs the query.
def text (q : Query) : String := q.toJson.pretty

end WikiQuery.Query
