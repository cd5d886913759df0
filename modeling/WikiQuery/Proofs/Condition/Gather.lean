import WikiQuery.Proofs.Condition.Atoms

namespace WikiQuery

-- What to note of the clauses that are neither unions nor filters, of the tests, and of the
-- resource to which a condition binds its variable.
structure Survey (α : Type) where
  clause : Clause → List α
  test : Test → List α
  resource : Resource → List α

namespace Survey

variable {α : Type}

-- A resource is noted the same whether a condition binds its variable to it or tests it for that.
def Fair (q : Survey α) : Prop := ∀ v x, q.test (.binds v x) = q.resource x

end Survey

variable {α : Type} {q : Survey α}

-- What is noted of a clause, at any depth.
def Clause.gather (q : Survey α) : Clause → List α
  | .union groups => groups.flatMap fun group => group.flatMap (gather q)
  | .filter f => f.flatMap q.test
  | clause => q.clause clause
decreasing_by exact sizeOf_lt_union ‹_› ‹_›

namespace Pattern

def gather (q : Survey α) (p : Pattern) : List α := p.flatMap (Clause.gather q)

@[simp] theorem gather_nil : gather q [] = [] := rfl

@[simp] theorem gather_cons (clause : Clause) (p : Pattern) :
    gather q (clause :: p) = clause.gather q ++ gather q p := rfl

@[simp] theorem gather_append (first second : Pattern) :
    gather q (first ++ second) = gather q first ++ gather q second :=
  List.flatMap_append

@[simp] theorem gather_addFilter (p : Pattern) (f : Filter) :
    (p.addFilter f).gather q = p.gather q ++ f.flatMap q.test := by
  unfold addFilter
  split
  · simp_all
  · simp [Clause.gather]

theorem gather_union (groups : List Pattern) :
    Clause.gather q (.union groups) = groups.flatMap (gather q) := by
  rw [Clause.gather]
  rfl

end Pattern

namespace Condition

-- What is noted of a condition, at any depth, without what goes along with it.
def gather (q : Survey α) : Condition → List α
  | ⟨.everything, _⟩ => []
  | ⟨.nothing, _⟩ => []
  | ⟨.pattern p, _⟩ => p.gather q
  | ⟨.filter f, _⟩ => f.flatMap q.test
  | ⟨.singleton x p, _⟩ => p.gather q ++ q.resource x
  | ⟨.alternatives branches, _⟩ => branches.flatMap (gather q)

theorem gather_eq_of_form {c d : Condition} (h : c.form = d.form) : c.gather q = d.gather q := by
  obtain ⟨form, a⟩ := c
  obtain ⟨form', b⟩ := d
  cases h
  cases form <;> simp only [gather]

theorem gather_of_everything {c : Condition} (h : c.form = .everything) : c.gather q = [] := by
  rw [gather_eq_of_form (d := ⟨.everything, c.attachments⟩) h, gather]

theorem gather_of_nothing {c : Condition} (h : c.form = .nothing) : c.gather q = [] := by
  rw [gather_eq_of_form (d := ⟨.nothing, c.attachments⟩) h, gather]

theorem gather_of_pattern {c : Condition} {p : Pattern} (h : c.form = .pattern p) :
    c.gather q = p.gather q := by
  rw [gather_eq_of_form (d := ⟨.pattern p, c.attachments⟩) h, gather]

theorem gather_of_filter {c : Condition} {f : Filter} (h : c.form = .filter f) :
    c.gather q = f.flatMap q.test := by
  rw [gather_eq_of_form (d := ⟨.filter f, c.attachments⟩) h, gather]

theorem gather_of_singleton {c : Condition} {x : Resource} {p : Pattern}
    (h : c.form = .singleton x p) : c.gather q = p.gather q ++ q.resource x := by
  rw [gather_eq_of_form (d := ⟨.singleton x p, c.attachments⟩) h, gather]

theorem gather_of_alternatives {c : Condition} {branches : List Condition}
    (h : c.form = .alternatives branches) : c.gather q = branches.flatMap (gather q) := by
  rw [gather_eq_of_form (d := ⟨.alternatives branches, c.attachments⟩) h, gather]

-- Nothing is lost from a condition when it becomes a pattern, and nothing is added.
theorem gather_toPattern? (hq : q.Fair) {c : Condition} {join : Variable} {p : Pattern}
    (h : c.toPattern? join = some p) : p.gather q = c.gather q := by
  induction c using nested_induction generalizing p with
  | node form a ih _ =>
    cases form with
    | everything => cases h; simp [gather]
    | nothing => cases h
    | pattern p => cases h; simp [gather]
    | filter f => cases h; simp [gather]
    | singleton x p => cases h; simp [gather, hq join x]
    | alternatives branches =>
      cases h
      rw [Pattern.gather_cons, Pattern.gather_nil, List.append_nil, Pattern.gather_union, gather,
        branchPatterns_eq_filterMap]
      refine flatMap_filterMap_of_eq ih ?_
      intro b _ hb
      exact gather_of_nothing (toPattern?_eq_none.mp hb)

end Condition

namespace Merge

variable {join : Variable} {m m' : Merge} {c : Condition}

-- What is noted of the conditions merged so far.
def gather (q : Survey α) (m : Merge) : List α :=
  m.pattern.gather q ++ m.filter.flatMap q.test ++ m.bound.toList.flatMap q.resource

theorem gather_finish (m : Merge) : m.finish.gather q = m.gather q := by
  unfold finish form gather
  cases m.bound with
  | some x => simp [Condition.gather]
  | none =>
    by_cases hp : m.pattern = []
    · by_cases hf : m.filter = [] <;> simp [hp, hf, Condition.gather]
    · simp [hp, Condition.gather]

-- What a condition adds to those merged before it. Where the variable is bound already, only the
-- resource that it is bound to next is left out.
theorem gather_absorb? (hq : q.Fair) (h : m.absorb? join c = some m') :
    m'.gather q ⊆ m.gather q ++ c.gather q ∧
      (m.bound = none → m.gather q ++ c.gather q ⊆ m'.gather q) := by
  obtain ⟨p, f, rfl, hcases⟩ := absorb?_cases h
  have hadded : c.gather q =
      p.gather q ++ f.flatMap q.test ++ c.bound?.toList.flatMap q.resource := by
    rcases hcases with ⟨hform, rfl, rfl⟩ | ⟨hform, rfl⟩ | ⟨hform, rfl⟩ | ⟨x, hform, rfl⟩ |
      ⟨branches, hform, hgroup, rfl⟩
    · simp [Condition.gather_of_everything hform, Condition.bound?, hform]
    · simp [Condition.gather_of_filter hform, Condition.bound?, hform]
    · simp [Condition.gather_of_pattern hform, Condition.bound?, hform]
    · simp [Condition.gather_of_singleton hform, Condition.bound?, hform]
    · simp [Condition.gather_toPattern? hq hgroup, Condition.bound?, hform]
  rw [hadded]
  unfold gather
  cases m.bound with
  | none =>
    simp only [Pattern.gather_append, List.flatMap_append, Option.none_or]
    constructor
    · intro y hy
      simp only [List.mem_append] at hy ⊢
      grind
    · intro _ y hy
      simp only [List.mem_append] at hy ⊢
      grind
  | some x =>
    simp only [Pattern.gather_append, List.flatMap_append, Option.some_or]
    refine ⟨?_, by simp⟩
    intro y hy
    simp only [List.mem_append] at hy ⊢
    grind

end Merge

end WikiQuery
