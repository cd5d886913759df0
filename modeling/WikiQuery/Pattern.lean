import WikiQuery.Filter
import WikiQuery.Subquery

namespace WikiQuery

-- An end of a triple.
inductive Term where
  | entity (v : Variable)
  | resource (r : Resource)
deriving DecidableEq

namespace Term

def shown : Term → String
  | entity v => v.shown
  | resource r => r.shown

end Term

-- A clause of a graph pattern. Where a closure is given, sub-properties or subcategories count.
inductive Clause where
  -- the subject has the object as a value of the property
  | triple (subject : Term) (property : Property) (object : Term) (closure : Option SubqueryId)
  -- the subject has some value of the property
  | hasValue (subject : Variable) (property : Property) (closure : Option SubqueryId)
  -- the subject is a page of the namespace
  | inNamespace (subject : Variable) (number : Int32)
  -- the subject is a member of one of the categories
  | inCategory (subject : Variable) (categories : List Nat) (closure : Option SubqueryId)
  -- the second variable is bound to what the page of the first one sorts by
  | sortKey (subject : Variable) (key : Variable)
  -- the tests hold
  | filter (filter : Filter)
  -- some group of clauses holds
  | union (groups : List (List Clause))

-- Clauses that all hold together, joined by the variables they share.
abbrev Pattern := List Clause

namespace Pattern

-- Adds a filter at the end; without tests there is nothing to add.
def addFilter (p : Pattern) (f : Filter) : Pattern :=
  if f.isEmpty then p else p ++ [.filter f]

end Pattern

namespace Clause

-- The subject of a closure: `name(arguments)`, where a reference takes the place of the name.
def closed (closure : Option SubqueryId) (arguments : String) (plain : String) : String :=
  match closure with
  | some id => "hierarchy-of" ++ id.shown ++ "(" ++ arguments ++ ")"
  | none => plain

mutual
def shown : Clause → String
  | triple s p o closure =>
    s.shown ++ " " ++ closed closure p.shown p.shown ++ " " ++ o.shown ++ " ."
  | hasValue s p closure => s.shown ++ " " ++ closed closure p.shown p.shown ++ " [] ."
  | inNamespace s n => s.shown ++ " swivt:wikiNamespace " ++ Text.signed n.toInt ++ " ."
  | inCategory s ids closure =>
    let list := ", ".intercalate (ids.map Text.decimal)
    s.shown ++ " rdf:type " ++ closed closure list ("category(" ++ list ++ ")") ++ " ."
  | sortKey s k => s.shown ++ " swivt:wikiPageSortKey " ++ k.shown ++ " ."
  | filter f => "FILTER( " ++ f.shown ++ " )"
  | union groups => " UNION ".intercalate (shownGroups groups)

def shownGroups : List (List Clause) → List String
  | [] => []
  | g :: gs => ("\x7b " ++ " ".intercalate (shownAll g) ++ " \x7d") :: shownGroups gs

def shownAll : List Clause → List String
  | [] => []
  | c :: cs => shown c :: shownAll cs
end

mutual
-- Equality of clauses, in which numbers are compared as numbers.
def same : Clause → Clause → Bool
  | triple s p o h, triple s' p' o' h' => s = s' && p = p' && o = o' && h = h'
  | hasValue s p h, hasValue s' p' h' => s = s' && p = p' && h = h'
  | inNamespace s n, inNamespace s' n' => s = s' && n = n'
  | inCategory s ids h, inCategory s' ids' h' => s = s' && ids = ids' && h = h'
  | sortKey s k, sortKey s' k' => s = s' && k = k'
  | filter f, filter g => f.same g
  | union gs, union hs => sameGroups gs hs
  | _, _ => false

def sameGroups : List (List Clause) → List (List Clause) → Bool
  | [], [] => true
  | g :: gs, h :: hs => sameAll g h && sameGroups gs hs
  | _, _ => false

def sameAll : List Clause → List Clause → Bool
  | [], [] => true
  | c :: cs, d :: ds => same c d && sameAll cs ds
  | _, _ => false
end

end Clause

namespace Pattern

def shown (p : Pattern) : String := " ".intercalate (Clause.shownAll p)

def same (p q : Pattern) : Bool := Clause.sameAll p q

end Pattern

end WikiQuery
