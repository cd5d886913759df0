import WikiQuery.Compile.Recursion

namespace WikiQuery

-- A compiler at work, with the sort keys of the query it is working on.
structure Session where
  compiler : Compiler
  sortKeys : SortKeys := ∅
  work : Work := {}

namespace Session

-- Starts a session, unless the compiler cannot be used.
def start (c : Compiler) : Except CompileError Session :=
  match c.error? with
  | some error => .error error
  | none => .ok { compiler := c }

def subqueries (s : Session) : SubqueryTable := s.work.subqueries

-- What has been reported, in order.
def events (s : Session) : List Event := s.work.log.reverse

-- Runs a step on the work of the session.
def run {α : Type} (s : Session) (step : Build α) : Except CompileError α × Session :=
  let (result, work) := (step.run).run s.work
  (result, { s with work })

-- Compiles a description, going on with the work done so far.
def compile (s : Session) (d : Description) (join : Variable) (target : Option SortTarget) :
    Except CompileError Condition × Session :=
  s.run (s.compiler.compile s.sortKeys [] d join target)

-- Compiles a description by the rule for a kind.
def build (s : Session) (kind : Kind) (d : Description) (join : Variable)
    (target : Option SortTarget) : Except CompileError Condition × Session :=
  s.run (s.compiler.build s.sortKeys [] kind d join target)

-- Forgets the work done so far, except what was reported, and sets the sort keys.
def reset (s : Session) (keys : SortKeys) : Session :=
  { s with sortKeys := keys, work := { log := s.work.log } }

-- Compiles the description of a whole query, from a fresh start. If the results themselves are to
-- be sorted, their variable is the one to sort by.
def compileRoot (s : Session) (d : Description) (join : Variable) (keys : SortKeys) :
    Except CompileError Condition × Session :=
  let target := if keys.contains SortKeys.mainSubject then some SortTarget.mainSubject else none
  let s := s.reset keys
  let s := { s with work := s.work.report (.compiling d.kind d.depth keys.size) }
  s.compile d join target

-- Hands over the sub-queries.
def takeSubqueries (s : Session) : SubqueryTable × Session :=
  (s.work.subqueries, { s with work := { s.work with subqueries := {} } })

end Session

-- A compiled query: all that is needed to run it.
structure Query where
  condition : Condition
  -- the closures that the condition refers to
  subqueries : SubqueryTable
  sortKeys : SortKeys
  -- the variable of the results
  result : Variable

namespace Query

-- The query has no results, whatever the wiki holds.
def isEmpty (q : Query) : Bool := q.condition.isNothing

end Query

namespace Session

-- Compiles a query with the sorts that are requested for it.
def query (s : Session) (d : Description) (sorts : List RequestedSort) :
    Except CompileError Query × Session :=
  let keys := SortKeys.ofRequests sorts
  let result : Variable := ⟨s.compiler.settings.result⟩
  match s.compileRoot d result keys with
  | (.error e, s) => (.error e, s)
  | (.ok condition, s) =>
    let (subqueries, s) := s.takeSubqueries
    let event := Event.compiled condition subqueries.size condition.attachments.sortVariables.size
    let s := { s with work := s.work.report event }
    (.ok ⟨condition, subqueries, keys, result⟩, s)

end Session

end WikiQuery
