import WikiQuery.Condition
import WikiQuery.Config.Basic
import WikiQuery.Description

namespace WikiQuery

inductive Level where
  | warn
  | debug
  | trace
deriving DecidableEq

namespace Level

def name : Level → String
  | warn => "warn"
  | debug => "debug"
  | trace => "trace"

def ofName? (s : String) : Option Level := [warn, debug, trace].find? (·.name = s)

def rank : Level → Nat
  | warn => 0
  | debug => 1
  | trace => 2

-- Whether an event of this level is of interest to a reader of another level.
def concerns (level reader : Level) : Bool := level.rank ≤ reader.rank

end Level

-- What a compilation reports while it runs.
inductive Event where
  | compiling (root : Kind) (depth sortKeys : Nat)
  | building (builder : String) (kind : Kind) (join : Variable)
  | compiled (condition : Condition) (subqueries sorted : Nat)
  | unresolvedCategory (category : Page)
  | undefinedConcept (concept : Page)
  | circularConcept (concept : Page)
  | ignoredComparator (level : Level) (comparator : Comparator) (datatype : Datatype)
  | unresolvedProperty (property : Property)
  | conflictingBindings (bound conflicting : Resource)
  | collectedAlternatives (parts alternatives : Nat)
  | discardedSubqueries (count : Nat)
  | loadingConfig (path : String) (format : Format)

namespace Event

def level : Event → Level
  | compiling _ _ _ => .debug
  | building _ _ _ => .trace
  | compiled _ _ _ => .debug
  | unresolvedCategory _ => .debug
  | undefinedConcept _ => .debug
  | circularConcept _ => .warn
  | ignoredComparator level _ _ => level
  | unresolvedProperty _ => .debug
  | conflictingBindings _ _ => .debug
  | collectedAlternatives _ _ => .trace
  | discardedSubqueries _ => .trace
  | loadingConfig _ _ => .debug

def message : Event → String
  | compiling _ _ _ => "Compiling query description"
  | building _ _ _ => "Building condition"
  | compiled _ _ _ => "Compiled query"
  | unresolvedCategory _ => "Dropping unresolved category"
  | undefinedConcept _ => "Concept has no definition"
  | circularConcept _ => "Concept definition refers back to itself"
  | ignoredComparator _ _ _ => "Comparator has no effect, matching all values"
  | unresolvedProperty _ => "Property does not resolve, no entity can match"
  | conflictingBindings _ _ => "Conflicting bindings in conjunction"
  | collectedAlternatives _ _ => "Collected disjunction alternatives"
  | discardedSubqueries _ => "Discarding sub-queries of dropped condition"
  | loadingConfig _ _ => "Loading config"

-- The particulars of an event, by name.
def fields : Event → List (String × String)
  | compiling root depth sortKeys =>
    [("root", root.name), ("depth", Text.decimal depth), ("sort_keys", Text.decimal sortKeys)]
  | building builder kind join =>
    [("builder", builder), ("kind", kind.name), ("join", join.shown)]
  | compiled condition subqueries sorted =>
    [("condition", condition.shown), ("subqueries", Text.decimal subqueries),
      ("sorted", Text.decimal sorted)]
  | unresolvedCategory category => [("category", category.shown)]
  | undefinedConcept concept => [("concept", concept.shown)]
  | circularConcept concept => [("concept", concept.shown)]
  | ignoredComparator _ comparator datatype =>
    [("comparator", comparator.title), ("value_type", datatype.title)]
  | unresolvedProperty property => [("property", property.shown)]
  | conflictingBindings bound conflicting =>
    [("bound", bound.shown), ("conflicting", conflicting.shown)]
  | collectedAlternatives parts alternatives =>
    [("children", Text.decimal parts), ("alternatives", Text.decimal alternatives)]
  | discardedSubqueries count => [("discarded", Text.decimal count)]
  | loadingConfig path format => [("path", path), ("format", format.name)]

end Event

end WikiQuery
