import WikiQuery.KeyMap
import WikiQuery.Pattern

namespace WikiQuery

-- What a condition asks of the variable it is about.
inductive Form (γ : Type) where
  -- nothing
  | everything
  -- what no entity has
  | nothing
  -- that a pattern holds
  | pattern (p : Pattern)
  -- that tests hold, which bind no variable
  | filter (f : Filter)
  -- to be one resource, and that a pattern holds
  | singleton (r : Resource) (p : Pattern)
  -- that one of several conditions holds
  | alternatives (branches : List γ)

-- What goes along with a condition.
structure Attachments (γ : Type) where
  -- the vocabularies it refers to, label to address
  vocabularies : KeyMap String := ∅
  -- conditions that may be dropped when they cost too much
  weak : List γ := []
  -- the variable that holds what each sort key sorts by
  sortVariables : KeyMap Variable := ∅
  -- whether some clause selects entities, rather than only testing them
  safe : Bool := false

-- A condition on the entities bound to a variable.
structure Condition where
  form : Form Condition
  attachments : Attachments Condition := {}

namespace Condition

def everything : Condition := { form := .everything }

def nothing : Condition := { form := .nothing }

def ofPattern (p : Pattern) : Condition := { form := .pattern p }

def ofFilter (f : Filter) : Condition := { form := .filter f }

def isEverything (c : Condition) : Bool :=
  match c.form with
  | .everything => true
  | _ => false

def isNothing (c : Condition) : Bool :=
  match c.form with
  | .nothing => true
  | _ => false

-- The resource that the condition binds its variable to.
def bound? (c : Condition) : Option Resource :=
  match c.form with
  | .singleton r _ => some r
  | _ => none

def safe (c : Condition) : Bool := c.attachments.safe

def withAttachments (c : Condition) (a : Attachments Condition) : Condition :=
  { c with attachments := a }

def withSafe (c : Condition) (safe : Bool) : Condition :=
  c.withAttachments { c.attachments with safe }

-- Declares a vocabulary, unless its label is declared already.
def declare (c : Condition) (v : Vocabulary) : Condition :=
  c.withAttachments
    { c.attachments with vocabularies := c.attachments.vocabularies.insertNew v.label v.uri }

mutual
-- Equality of conditions, in which numbers are compared as numbers.
def same : Condition → Condition → Bool
  | ⟨f, a⟩, ⟨g, b⟩ => sameForm f g && sameAttachments a b

def sameForm : Form Condition → Form Condition → Bool
  | .everything, .everything => true
  | .nothing, .nothing => true
  | .pattern p, .pattern q => p.same q
  | .filter f, .filter g => f.same g
  | .singleton r p, .singleton t q => r = t && p.same q
  | .alternatives bs, .alternatives cs => sameAll bs cs
  | _, _ => false

def sameAttachments : Attachments Condition → Attachments Condition → Bool
  | ⟨vs, ws, ss, safe⟩, ⟨vs', ws', ss', safe'⟩ =>
    vs = vs' && sameAll ws ws' && ss = ss' && safe = safe'

def sameAll : List Condition → List Condition → Bool
  | [], [] => true
  | c :: cs, d :: ds => same c d && sameAll cs ds
  | _, _ => false
end

instance : BEq Condition := ⟨same⟩

end Condition

namespace Attachments

-- The union of two attachments: what the first one has stays, in its place, and what only the
-- second one has is added.
def merge {γ : Type} [BEq γ] (a b : Attachments γ) : Attachments γ where
  vocabularies := a.vocabularies.union b.vocabularies
  weak := b.weak.foldl (fun weak w => if weak.contains w then weak else weak ++ [w]) a.weak
  sortVariables := a.sortVariables.union b.sortVariables
  safe := a.safe || b.safe

end Attachments

namespace Condition

mutual
-- A pattern that stands on its own and says of a variable what the condition says of it. A
-- condition that nothing fulfils has none.
def toPattern? (join : Variable) : Condition → Option Pattern
  | ⟨form, _⟩ => formPattern? join form

def formPattern? (join : Variable) : Form Condition → Option Pattern
  | .everything => some []
  | .nothing => none
  | .pattern p => some p
  | .filter f => some (Pattern.addFilter [] f)
  | .singleton r p => some (p.addFilter [.binds join r])
  | .alternatives branches => some [.union (branchPatterns join branches)]

-- The patterns of the branches that have one.
def branchPatterns (join : Variable) : List Condition → List Pattern
  | [] => []
  | c :: cs =>
    match toPattern? join c with
    | some p => p :: branchPatterns join cs
    | none => branchPatterns join cs
end

mutual
-- The text of a condition. What goes along with it is not part of the text.
def shown : Condition → String
  | ⟨form, _⟩ => shownForm form

def shownForm : Form Condition → String
  | .everything => "TRUE"
  | .nothing => "FALSE"
  | .pattern p => "WHERE \x7b " ++ p.shown ++ " \x7d"
  | .filter f => "FILTER( " ++ f.shown ++ " )"
  | .singleton r p =>
    if p.isEmpty then "SINGLETON " ++ r.shown
    else "SINGLETON " ++ r.shown ++ " \x7b " ++ p.shown ++ " \x7d"
  | .alternatives branches => " UNION ".intercalate (shownBranches branches)

def shownBranches : List Condition → List String
  | [] => []
  | c :: cs => ("\x7b " ++ shown c ++ " \x7d") :: shownBranches cs
end

end Condition

end WikiQuery
