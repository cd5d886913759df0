import WikiQuery.Condition

namespace WikiQuery

-- The conditions merged so far on one variable: clauses, tests, and the resource it is bound to.
structure Merge where
  pattern : Pattern := []
  filter : Filter := []
  bound : Option Resource := none
  attachments : Attachments Condition := {}

namespace Merge

-- The two resources, if a condition binds the variable to another one than it is bound to.
def conflict? (m : Merge) (c : Condition) : Option (Resource × Resource) :=
  match m.bound, c.bound? with
  | some bound, some r => if bound.identity = r.identity then none else some (bound, r)
  | _, _ => none

-- Takes in a condition; there is none when nothing can fulfil all of them together.
def absorb? (join : Variable) (m : Merge) (c : Condition) : Option Merge :=
  if (m.conflict? c).isSome then none
  else
    let m' := { m with attachments := m.attachments.merge c.attachments }
    match c.form with
    | .nothing => none
    | .everything => some m'
    | .pattern p => some { m' with pattern := m.pattern ++ p }
    | .filter f => some { m' with filter := m.filter ++ f }
    | .singleton r p => some { m' with bound := m.bound.or (some r), pattern := m.pattern ++ p }
    | .alternatives branches =>
      some { m' with pattern := m.pattern ++ [.union (Condition.branchPatterns join branches)] }

-- What the merged conditions ask for together.
def form (m : Merge) : Form Condition :=
  match m.bound with
  | some r => .singleton r (m.pattern.addFilter m.filter)
  | none =>
    if m.pattern.isEmpty then
      if m.filter.isEmpty then .everything else .filter m.filter
    else .pattern (m.pattern.addFilter m.filter)

def finish (m : Merge) : Condition := ⟨m.form, m.attachments⟩

end Merge

end WikiQuery
