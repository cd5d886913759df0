import WikiQuery.Compile.Sorting
import WikiQuery.Text.Basic

namespace WikiQuery

namespace Comparator

-- The relation that a comparator tests, if it is a plain comparison.
def relation? : Comparator → Option Relation
  | eq => some .eq
  | less => some .less
  | greater => some .greater
  | leq => some .leq
  | geq => some .geq
  | neq => some .neq
  | like => none
  | notLike => none
  | unknown => none

end Comparator

namespace Compiler

-- Compares a stored field of the variable's entity with a value. A page stands for its sort key.
def comparison (c : Compiler) (join : Variable) (p : Property) (relation : Relation)
    (value : Value) : Condition :=
  let fields := c.fields.fields p value.datatype
  match value.resource? with
  | some r => .ofFilter [.compare (.field fields.sort join) relation (.text r.sortKey)]
  | none => .ofFilter [.compare (.field fields.index join) relation (.value value)]

-- Matches a stored field of the variable's entity with a wildcard pattern.
def matching (c : Compiler) (join : Variable) (p : Property) (pattern : String) (negated : Bool) :
    Condition :=
  let fields := c.fields.fields p .text
  .ofFilter [.regex (.field fields.index join) (Text.likeRegex pattern) negated]

-- The condition for a comparison with a value, if the comparator has an effect on such a value.
def valueCondition? (c : Compiler) (join : Variable) (p : Property) (comparator : Comparator)
    (value : Value) : Option Condition :=
  match comparator, value with
  | .unknown, _ => none
  | .like, .text s => some (c.matching join p s false)
  | .like, _ => none
  | .notLike, .text s => some (c.matching join p s true)
  | .notLike, _ => none
  | .eq, .page r => some { form := .singleton r [], attachments := { safe := true } }
  | comparator, value => comparator.relation?.map fun r => c.comparison join p r value

-- Declares the vocabulary of a value that is an external resource.
def declareValue (value : Value) (condition : Condition) : Condition :=
  match value.resource? >>= Resource.vocabulary? with
  | some v => condition.declare v
  | none => condition

open Build in
def buildValue (c : Compiler) (keys : SortKeys) (join : Variable) (target : Option SortTarget)
    (p : Property) (comparator : Comparator) (value : Value) : Build Condition := do
  match c.valueCondition? join p comparator value with
  | some condition =>
    return c.attachSort keys join target value.datatype (declareValue value condition)
  | none =>
    let level := if c.settings.warnOnIgnored then Level.warn else .debug
    report (.ignoredComparator level comparator value.datatype)
    return c.attachSort keys join target value.datatype .everything

-- Pages of a namespace.
def namespaceCondition (c : Compiler) (keys : SortKeys) (join : Variable)
    (target : Option SortTarget) (number : Int32) : Condition :=
  c.attachSort keys join target .page
    ((Condition.ofPattern [.inNamespace join number]).withSafe true)

open Build in
-- The numbers of the categories that the wiki knows, each once.
def resolveCategories (c : Compiler) : List Page → List Nat → Build (List Nat)
  | [], ids => return ids
  | category :: rest, ids => do
    match c.catalog.category? category with
    | some id => resolveCategories c rest (if ids.contains id then ids else ids ++ [id])
    | none =>
      report (.unresolvedCategory category)
      resolveCategories c rest ids

open Build in
-- Registers a sub-query unless its closure is to have no depth.
def registerClosure (depth : UInt32) (q : Subquery) : Build (Option SubqueryId) := do
  if depth = 0 then return none
  return some (← register q)

-- Members of categories. If the wiki knows none of them, they have no members.
def buildCategories (c : Compiler) (keys : SortKeys) (join : Variable)
    (target : Option SortTarget) (categories : List Page) : Build Condition := do
  let ids ← c.resolveCategories categories []
  if ids.isEmpty then return .nothing
  let depth := c.settings.categoryDepth
  let closure ← registerClosure depth (.categories ids depth)
  return c.attachSort keys join target .page
    ((Condition.ofPattern [.inCategory join ids closure]).withSafe true)

end Compiler

end WikiQuery
