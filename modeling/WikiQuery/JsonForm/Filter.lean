import WikiQuery.Filter
import WikiQuery.JsonForm.Value

namespace WikiQuery

-- The JSON forms of operands, tests and filters. Relations and operands stand only within tests.

def Relation.toJson (r : Relation) : Json := .text r.name

def Relation.ofJson? (j : Json) : Option Relation := j.name? true >>= Relation.ofName?

def Operand.toJson : Operand → Json
  | .entity v => .object [("kind", .text "variable"), ("variable", v.toJson)]
  | .field name v =>
    .object [("kind", .text "field"), ("field", .text name), ("variable", v.toJson)]
  | .value v => .object [("kind", .text "value"), ("value", v.toJson)]
  | .text s => .object [("kind", .text "text"), ("text", .text s)]

def Operand.kinds : List (String × List String) :=
  [("variable", ["variable"]), ("field", ["field", "variable"]), ("value", ["value"]),
    ("text", ["text"])]

def Operand.ofJson? (j : Json) : Option Operand := do
  let (kind, r) ← j.variant? true Operand.kinds
  if kind = "variable" then return .entity (← r.required? "variable" Variable.ofJson?)
  else if kind = "field" then
    return .field (← r.required? "field" Json.text?) (← r.required? "variable" Variable.ofJson?)
  else if kind = "value" then return .value (← r.required? "value" (Value.ofJson? true))
  else if kind = "text" then return .text (← r.required? "text" Json.text?)
  else none

def Test.toJson : Test → Json
  | .compare left relation right =>
    .object [("kind", .text "compare"), ("left", left.toJson), ("op", relation.toJson),
      ("right", right.toJson)]
  | .regex operand pattern negated =>
    .object [("kind", .text "regex"), ("operand", operand.toJson), ("pattern", .text pattern),
      ("negated", .bool negated)]

def Test.kinds : List (String × List String) :=
  [("compare", ["left", "op", "right"]), ("regex", ["operand", "pattern", "negated"])]

def Test.ofJson? (inner : Bool) (j : Json) : Option Test := do
  let (kind, r) ← j.variant? inner Test.kinds
  if kind = "compare" then
    return .compare (← r.required? "left" Operand.ofJson?) (← r.required? "op" Relation.ofJson?)
      (← r.required? "right" Operand.ofJson?)
  else if kind = "regex" then
    return .regex (← r.required? "operand" Operand.ofJson?) (← r.required? "pattern" Json.text?)
      (← r.required? "negated" Json.bool?)
  else none

def Filter.toJson (f : Filter) : Json := .array (f.map Test.toJson)

def Filter.ofJson? (inner : Bool) (j : Json) : Option Filter := Json.list? (Test.ofJson? inner) j

end WikiQuery
