import WikiQuery.Compile.Leaf
import WikiQuery.Compile.Merge

namespace WikiQuery

namespace Compiler

-- The clause that relates an entity to a value of a property, and the variable of that value.
-- Values that are pages get a variable of their own, while other values stay with their entity.
def relate (c : Compiler) (join : Variable) (p : Property) (info : PropertyInfo)
    (closure : Option SubqueryId) : Build (Clause × Variable) := do
  if info.datatype.isPage then
    let v ← Build.fresh c.settings.stem
    if p.inverse then return (.triple (.entity v) p (.entity join) closure, v)
    else return (.triple (.entity join) p (.entity v) closure, v)
  else return (.hasValue join p closure, join)

-- The condition that a value of a property fulfils an inner condition, given as a pattern.
def propertyCondition (c : Compiler) (keys : SortKeys) (join : Variable)
    (target : Option SortTarget) (p : Property) (clause : Clause) (inner : Condition)
    (group : Pattern) : Condition :=
  let condition : Condition :=
    { form := .pattern (clause :: group), attachments := { inner.attachments with safe := true } }
  let declared := match p.vocabulary with
    | some v => condition.declare v
    | none => condition
  c.attachSort keys join target .page declared

-- The alternatives of a disjunction: none fulfil it, one stands for itself, several stand together.
def alternativesCondition (branches : List Condition) : Condition :=
  match branches with
  | [] => .nothing
  | [branch] => branch
  | branches =>
    { form := .alternatives branches
      attachments := branches.foldl (fun a b => a.merge b.attachments) {} }

end Compiler

-- A way to do the steps of a compilation: how a step on the work is done, and where the sort keys
-- are.
structure Machine (m : Type → Type) where
  work : {α : Type} → Build α → m α
  sortKeys : m SortKeys

namespace Machine

open Build

variable {m : Type → Type} [Monad m] {α : Type}

-- A step that may have no result, and then leaves none of the sub-queries that it has registered.
def tentatively (t : Machine m) (x : m (Option α)) : m (Option α) := do
  let mark ← t.work checkpoint
  match ← x with
  | some a => return some a
  | none =>
    t.work (rollback mark)
    return none

-- Merges the conditions of several descriptions on one variable, one after the other; there is no
-- result as soon as nothing can fulfil all of them together.
def conjuncts (t : Machine m) (again : α → m Condition) (join : Variable) (merged : Merge) :
    List α → m (Option Merge)
  | [] => return some merged
  | part :: rest => do
    let condition ← again part
    match merged.absorb? join condition with
    | some merged => t.conjuncts again join merged rest
    | none =>
      match merged.conflict? condition with
      | some (bound, other) => t.work (report (.conflictingBindings bound other))
      | none => pure ()
      return none

-- The conditions of several descriptions on one variable, without those that nothing fulfils; there
-- is no result as soon as one of them is fulfilled by everything.
def branches (again : α → m Condition) : List α → m (Option (List Condition))
  | [] => return some []
  | part :: rest => do
    let condition ← again part
    if condition.isEverything then return none
    let found ← branches again rest
    if condition.isNothing then return found
    return found.map (condition :: ·)

variable (t : Machine m) (c : Compiler) (join : Variable) (target : Option SortTarget)

-- Nothing fulfils a concept that is met within its own expansion.
def circular (page : Page) : m Condition := do
  t.work (report (.circularConcept page))
  return .nothing

-- A concept stands for its definition. `expand` compiles the definition, or does what is handed to
-- it if the concept is being expanded already.
def concept (page : Page)
    (expand : (definition : Description) → c.catalog.concept? page = some definition →
      m Condition → m Condition) : m Condition :=
  match h : c.catalog.concept? page with
  | none => do
    t.work (report (.undefinedConcept page))
    return .nothing
  | some definition =>
    expand definition h (t.circular page)

-- The clause for a value of a property, the condition on the value and the pattern that stands for
-- it, if there is one.
def related (p : Property) (info : PropertyInfo)
    (again : Variable → Option SortTarget → m Condition) :
    m (Option (Clause × Condition × Pattern)) := do
  let depth := c.settings.propertyDepth
  let closure ← t.work (Compiler.registerClosure depth (.property p info.id depth))
  let (clause, v) ← t.work (c.relate join p info closure)
  let condition ← again v (some ⟨p.key, info.datatype⟩)
  return (condition.toPattern? v).map fun group => (clause, condition, group)

def someProperty (p : Property) (again : Variable → Option SortTarget → m Condition) :
    m Condition := do
  match c.catalog.property? p with
  | none =>
    t.work (report (.unresolvedProperty p))
    return .nothing
  | some info =>
    match ← t.tentatively (t.related c join p info again) with
    | some (clause, condition, group) =>
      return c.propertyCondition (← t.sortKeys) join target p clause condition group
    | none => return .nothing

def conjunction (again : α → Option SortTarget → m Condition) : List α → m Condition
  | [] => return c.everything (← t.sortKeys) join target
  | [part] => again part target
  | first :: second :: rest => do
    match ← t.tentatively (t.conjuncts (again · none) join {} (first :: second :: rest)) with
    | some merged => return c.attachRequested (← t.sortKeys) join target merged.finish
    | none => return .nothing

def disjunction (again : α → m Condition) (parts : List α) : m Condition := do
  match ← t.tentatively (branches again parts) with
  | some found =>
    t.work (report (.collectedAlternatives parts.length found.length))
    return c.attachRequested (← t.sortKeys) join target (Compiler.alternativesCondition found)
  | none => return c.everything (← t.sortKeys) join target

variable (d : Description)
  (again : (part : Description) → part ∈ d.parts → Variable → Option SortTarget → m Condition)
  (expand : (page : Page) → (definition : Description) →
    c.catalog.concept? page = some definition → m Condition → m Condition)

-- The condition for a description by the rule for a kind. The rule for things takes everything,
-- every other rule the descriptions of its kind only.
def build (kind : Kind) : m Condition := do
  if kind = .thing then return c.everything (← t.sortKeys) join target
  else if kind ≠ d.kind then t.work (throw (.unexpectedDescription kind.name d.kind))
  else
    match d, again with
    | .thing, _ => return c.everything (← t.sortKeys) join target
    | .inNamespace number, _ => return c.namespaceCondition (← t.sortKeys) join target number
    | .inCategory categories, _ =>
      t.work (c.buildCategories (← t.sortKeys) join target categories)
    | .concept page, _ => t.concept c page (expand page)
    | .value p comparator value, _ =>
      t.work (c.buildValue (← t.sortKeys) join target p comparator value)
    | .someProperty p inner, again =>
      t.someProperty c join target p (again inner (List.mem_singleton_self inner))
    | .conjunction parts, again =>
      t.conjunction c join target (fun part => again part.1 part.2 join) parts.attach
    | .disjunction parts, again =>
      t.disjunction c join target (fun part => again part.1 part.2 join target) parts.attach

-- The condition for a description on a variable, built by the first builder that takes it. `again`
-- compiles the descriptions within.
def compile : m Condition := do
  match c.builderFor? d.kind with
  | none => t.work (throw (.noBuilder d.kind c.builderNames))
  | some builder =>
    t.work (report (.building builder.name d.kind join))
    match builder.recipe with
    | .constant condition => return condition
    | .standard kind => t.build c join target d again expand kind
    | .refuse => t.work (throw (.unexpectedDescription builder.name d.kind))

-- The steps on the work itself, with sort keys that are given.
def plain (keys : SortKeys) : Machine Build where
  work := id
  sortKeys := pure keys

end Machine

namespace Compiler

-- The condition for a description on a variable. On the path are the concepts within whose
-- definitions the description stands; every concept entered is one that is defined and not on the
-- path, so there are fewer and fewer left.
def compile (c : Compiler) (keys : SortKeys) (path : List Page) (d : Description)
    (join : Variable) (target : Option SortTarget) : Build Condition :=
  (Machine.plain keys).compile c join target d
    (fun part _part join target => compile c keys path part join target)
    (fun page definition _defined otherwise =>
      if _entered : page ∈ path then otherwise
      else compile c keys (page :: path) definition join target)
termination_by (c.catalog.remaining path, sizeOf d)
decreasing_by
  · exact Prod.Lex.right _ (Description.sizeOf_lt_of_mem_parts _part)
  · exact Prod.Lex.left _ _ (Catalog.remaining_lt _defined _entered)

-- The condition for a description by the rule for a kind.
def build (c : Compiler) (keys : SortKeys) (path : List Page) (kind : Kind) (d : Description)
    (join : Variable) (target : Option SortTarget) : Build Condition :=
  (Machine.plain keys).build c join target d
    (fun part _ => c.compile keys path part)
    (fun page definition _ otherwise =>
      if page ∈ path then otherwise else c.compile keys (page :: path) definition join target)
    kind

end Compiler

end WikiQuery
