import WikiQuery.Resource
import WikiQuery.Value

namespace WikiQuery

-- The relation that a comparison tests.
inductive Relation where
  | eq
  | less
  | greater
  | leq
  | geq
  | neq
deriving DecidableEq

namespace Relation

def all : List Relation := [eq, less, greater, leq, geq, neq]

def name : Relation → String
  | eq => "eq"
  | less => "less"
  | greater => "greater"
  | leq => "leq"
  | geq => "geq"
  | neq => "neq"

def ofName? (s : String) : Option Relation := all.find? (·.name = s)

def sign : Relation → String
  | eq => "="
  | less => "<"
  | greater => ">"
  | leq => "<="
  | geq => ">="
  | neq => "!="

end Relation

-- A side of a comparison: the entity of a variable, one of its stored fields, a value, or a text.
inductive Operand where
  | entity (v : Variable)
  | field (name : String) (v : Variable)
  | value (value : Value)
  | text (s : String)

namespace Operand

def shown : Operand → String
  | entity v => v.shown
  | field name v => name ++ "(" ++ v.shown ++ ")"
  | value x => x.shown
  | text s => Text.quoted s

def same : Operand → Operand → Bool
  | entity v, entity w => v = w
  | field m v, field n w => m = n && v = w
  | value x, value y => x.same y
  | text s, text t => s = t
  | _, _ => false

end Operand

-- A test on the entities that a pattern has found.
inductive Test where
  | compare (left : Operand) (relation : Relation) (right : Operand)
  | regex (operand : Operand) (pattern : String) (negated : Bool)

namespace Test

-- The variable is bound to the resource.
def binds (v : Variable) (r : Resource) : Test := compare (.entity v) .eq (.value (.page r))

def shown : Test → String
  | compare left relation right => left.shown ++ " " ++ relation.sign ++ " " ++ right.shown
  | regex operand pattern negated =>
    (if negated then "!" else "") ++ "regex(" ++ operand.shown ++ ", " ++ Text.quoted pattern ++
      ", \"s\")"

def same : Test → Test → Bool
  | compare a r b, compare c t d => a.same c && r = t && b.same d
  | regex a p m, regex b q n => a.same b && p = q && m = n
  | _, _ => false

end Test

-- Tests that all have to hold.
abbrev Filter := List Test

namespace Filter

def shown (f : Filter) : String := " && ".intercalate (f.map Test.shown)

def same : Filter → Filter → Bool
  | [], [] => true
  | s :: f, t :: g => s.same t && same f g
  | _, _ => false

end Filter

end WikiQuery
