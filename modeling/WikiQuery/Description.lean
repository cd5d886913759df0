import WikiQuery.Resource
import WikiQuery.Value

namespace WikiQuery

-- What a query asks of an entity.
inductive Description where
  -- nothing: every entity will do
  | thing
  -- to be a page of a namespace
  | inNamespace (number : Int32)
  -- to be a member of one of the categories
  | inCategory (categories : List Page)
  -- to fulfil a query stored under a name
  | concept (page : Page)
  -- to compare with a value
  | value (property : Property) (comparator : Comparator) (value : Value)
  -- to have a value of the property that fulfils the inner description
  | someProperty (property : Property) (inner : Description)
  -- to fulfil all parts
  | conjunction (parts : List Description)
  -- to fulfil some part
  | disjunction (parts : List Description)

-- The kinds of descriptions.
inductive Kind where
  | thing
  | inNamespace
  | inCategory
  | concept
  | value
  | someProperty
  | conjunction
  | disjunction
deriving DecidableEq

namespace Kind

def all : List Kind :=
  [thing, inNamespace, inCategory, concept, value, someProperty, conjunction, disjunction]

def name : Kind → String
  | thing => "thing"
  | inNamespace => "namespace"
  | inCategory => "class"
  | concept => "concept"
  | value => "value"
  | someProperty => "some_property"
  | conjunction => "conjunction"
  | disjunction => "disjunction"

def ofName? (s : String) : Option Kind := all.find? (·.name = s)

end Kind

namespace Description

def kind : Description → Kind
  | thing => .thing
  | inNamespace _ => .inNamespace
  | inCategory _ => .inCategory
  | concept _ => .concept
  | value _ _ _ => .value
  | someProperty _ _ => .someProperty
  | conjunction _ => .conjunction
  | disjunction _ => .disjunction

-- The descriptions right within a description.
def parts : Description → List Description
  | someProperty _ inner => [inner]
  | conjunction parts => parts
  | disjunction parts => parts
  | _ => []

theorem sizeOf_lt_of_mem_parts {d part : Description} (h : part ∈ d.parts) :
    sizeOf part < sizeOf d := by
  cases d with
  | someProperty p inner =>
    rw [List.mem_singleton.mp h, someProperty.sizeOf_spec]
    omega
  | conjunction parts =>
    have hlt := List.sizeOf_lt_of_mem h
    rw [conjunction.sizeOf_spec]
    exact Nat.lt_add_left 1 hlt
  | disjunction parts =>
    have hlt := List.sizeOf_lt_of_mem h
    rw [disjunction.sizeOf_spec]
    exact Nat.lt_add_left 1 hlt
  | _ => cases h

-- Membership in one of the categories, each of them named once.
def ofCategories (categories : List Page) : Description := inCategory categories.eraseDups

mutual
-- The number of levels of a description; a leaf has one.
def depth : Description → Nat
  | someProperty _ inner => 1 + depth inner
  | conjunction parts => 1 + maxDepth parts
  | disjunction parts => 1 + maxDepth parts
  | thing => 1
  | inNamespace _ => 1
  | inCategory _ => 1
  | concept _ => 1
  | value _ _ _ => 1

def maxDepth : List Description → Nat
  | [] => 0
  | d :: ds => max (depth d) (maxDepth ds)
end

end Description

end WikiQuery
