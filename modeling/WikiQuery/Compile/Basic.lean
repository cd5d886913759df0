import WikiQuery.Catalog
import WikiQuery.Condition
import WikiQuery.Config.Basic
import WikiQuery.Description
import WikiQuery.Event
import WikiQuery.Text.Literal

namespace WikiQuery

-- Why no condition is built. That nothing can fulfil a query is no error.
inductive CompileError where
  | noBuilder (kind : Kind) (tried : List String)
  | missingBuilder (kind : Kind)
  | unexpectedDescription (builder : String) (kind : Kind)
  | config (cause : ConfigError)
deriving DecidableEq

namespace CompileError

def message : CompileError → String
  | noBuilder kind tried =>
    "No condition builder for " ++ kind.name ++ " description (tried: " ++
      Text.literalList tried ++ ")"
  | missingBuilder kind => "No condition builder registered for " ++ kind.name ++ " descriptions"
  | unexpectedDescription builder kind =>
    "Builder '" ++ builder ++ "' cannot build " ++ kind.name ++ " descriptions"
  | config cause => "Invalid compiler configuration: " ++ cause.message

end CompileError

-- What a builder does with a description that it is given.
inductive Recipe where
  -- one condition for all descriptions
  | constant (condition : Condition)
  -- the rule for descriptions of a kind
  | standard (kind : Kind)
  -- an error
  | refuse

-- A named builder of conditions: the kinds of descriptions it is registered for, those of them it
-- takes, and what it does with them.
structure Builder where
  name : String
  handles : List Kind
  takes : List Kind := handles
  recipe : Recipe

namespace Builder

-- The builder that is made for the descriptions of a kind.
def standard (kind : Kind) : Builder where
  name := kind.name
  handles := [kind]
  recipe := .standard kind

def standards : List Builder := Kind.all.map standard

end Builder

-- What a compilation reads: what the wiki knows, the settings, and the builders, of which the first
-- one that takes a description builds its condition.
structure Compiler where
  catalog : Catalog := {}
  settings : Settings := {}
  fields : FieldNames := {}
  builders : List Builder := Builder.standards

namespace Compiler

-- The first kind of description for which no builder is registered.
def uncovered? (c : Compiler) : Option Kind :=
  Kind.all.find? fun kind => c.builders.all fun b => kind ∉ b.handles

-- What keeps the compiler from being used.
def error? (c : Compiler) : Option CompileError :=
  match c.settings.fault? with
  | some fault => some (.config (.invalid fault))
  | none => c.uncovered?.map .missingBuilder

def builderFor? (c : Compiler) (kind : Kind) : Option Builder :=
  c.builders.find? fun b => kind ∈ b.takes

def builderNames (c : Compiler) : List String := c.builders.map (·.name)

end Compiler

-- What a compilation has done so far: how many variables it has introduced, the sub-queries it has
-- registered, and what it has reported, the latest first.
structure Work where
  counter : Nat := 0
  subqueries : SubqueryTable := {}
  log : List Event := []

namespace Work

def report (w : Work) (e : Event) : Work := { w with log := e :: w.log }

-- A variable with the next number.
def fresh (w : Work) (stem : String) : Variable × Work :=
  let n := w.counter + 1
  (⟨stem ++ Text.decimal n⟩, { w with counter := n })

def register (w : Work) (q : Subquery) : SubqueryId × Work :=
  let (id, subqueries) := w.subqueries.register q
  (id, { w with subqueries })

-- Forgets the sub-queries registered since there were `size` of them.
def rollback (w : Work) (size : Nat) : Work :=
  if size < w.subqueries.size then
    { w.report (.discardedSubqueries (w.subqueries.size - size)) with
      subqueries := w.subqueries.truncate size }
  else w

end Work

-- A step of a compilation. What has been done before an error stays done.
abbrev Build := ExceptT CompileError (StateM Work)

namespace Build

def report (e : Event) : Build Unit := modify (·.report e)

def fresh (stem : String) : Build Variable := modifyGet (·.fresh stem)

def register (q : Subquery) : Build SubqueryId := modifyGet (·.register q)

-- The number of sub-queries registered so far.
def checkpoint : Build Nat := return (← get).subqueries.size

def rollback (size : Nat) : Build Unit := modify (·.rollback size)

end Build

end WikiQuery
