import Mathlib.Tactic.SplitIfs
import WikiQuery.Compile.Recursion

namespace WikiQuery

namespace Clause

theorem sizeOf_lt_union {groups : List Pattern} {group : Pattern} {clause : Clause}
    (hgroup : group ∈ groups) (hclause : clause ∈ group) :
    sizeOf clause < sizeOf (Clause.union groups) := by
  have h₁ := List.sizeOf_lt_of_mem hgroup
  have h₂ := List.sizeOf_lt_of_mem hclause
  simp only [union.sizeOf_spec]
  omega

-- Clauses in the groups of a union are reached through the union.
theorem nested_induction {P : Clause → Prop}
    (triple : ∀ s p o closure, P (.triple s p o closure))
    (hasValue : ∀ v p closure, P (.hasValue v p closure))
    (inNamespace : ∀ v number, P (.inNamespace v number))
    (inCategory : ∀ v ids closure, P (.inCategory v ids closure))
    (sortKey : ∀ v key, P (.sortKey v key))
    (filter : ∀ f, P (.filter f))
    (union : ∀ groups, (∀ group ∈ groups, ∀ clause ∈ group, P clause) → P (.union groups))
    (clause : Clause) : P clause :=
  match clause with
  | .triple s p o closure => triple s p o closure
  | .hasValue v p closure => hasValue v p closure
  | .inNamespace v number => inNamespace v number
  | .inCategory v ids closure => inCategory v ids closure
  | .sortKey v key => sortKey v key
  | .filter f => filter f
  | .union groups => union groups fun _ _ clause _ =>
    nested_induction triple hasValue inNamespace inCategory sortKey filter union clause
decreasing_by exact sizeOf_lt_union ‹_› ‹_›

-- The clauses at any depth that are neither unions nor filters, in the order in which they stand.
def atoms : Clause → List Clause
  | .union groups => groups.flatMap fun group => group.flatMap atoms
  | .filter _ => []
  | clause => [clause]
decreasing_by exact sizeOf_lt_union ‹_› ‹_›

end Clause

def Pattern.atoms (p : Pattern) : List Clause := p.flatMap Clause.atoms

namespace Pattern

@[simp] theorem atoms_nil : Pattern.atoms [] = [] := rfl

@[simp] theorem atoms_cons (clause : Clause) (p : Pattern) :
    Pattern.atoms (clause :: p) = clause.atoms ++ Pattern.atoms p := rfl

@[simp] theorem atoms_append (p q : Pattern) :
    Pattern.atoms (p ++ q) = Pattern.atoms p ++ Pattern.atoms q :=
  List.flatMap_append

@[simp] theorem atoms_addFilter (p : Pattern) (f : Filter) : (p.addFilter f).atoms = p.atoms := by
  unfold addFilter
  split
  · rfl
  · simp [Clause.atoms]

theorem atoms_union (groups : List Pattern) :
    Clause.atoms (.union groups) = groups.flatMap Pattern.atoms := by
  rw [Clause.atoms]
  rfl

end Pattern

-- The conditions one of which a form asks for.
def Form.branches {γ : Type} : Form γ → List γ
  | .alternatives branches => branches
  | _ => []

namespace Condition

theorem sizeOf_branch_lt {form : Form Condition} {a : Attachments Condition} {b : Condition}
    (h : b ∈ form.branches) : sizeOf b < sizeOf (Condition.mk form a) := by
  cases form with
  | alternatives branches =>
    have : sizeOf b < sizeOf branches := List.sizeOf_lt_of_mem h
    simp only [mk.sizeOf_spec, Form.alternatives.sizeOf_spec]
    omega
  | _ => cases h

theorem sizeOf_weak_lt {form : Form Condition} {a : Attachments Condition} {w : Condition}
    (h : w ∈ a.weak) : sizeOf w < sizeOf (Condition.mk form a) := by
  have h₁ := List.sizeOf_lt_of_mem h
  cases a
  simp only [mk.sizeOf_spec, Attachments.mk.sizeOf_spec] at h₁ ⊢
  omega

-- The clauses of a condition at any depth, without its tests and without what goes along with it.
def atoms : Condition → List Clause
  | ⟨.pattern p, _⟩ => p.atoms
  | ⟨.singleton _ p, _⟩ => p.atoms
  | ⟨.alternatives branches, _⟩ => branches.flatMap atoms
  | ⟨.everything, _⟩ => []
  | ⟨.nothing, _⟩ => []
  | ⟨.filter _, _⟩ => []

-- The weak conditions that go along with a condition, with its branches, or with one another.
def asides : Condition → List Condition
  | ⟨form, a⟩ => (a.weak.flatMap fun w => w :: asides w) ++
    match form with
    | .alternatives branches => branches.flatMap asides
    | _ => []
decreasing_by
  · exact sizeOf_weak_lt ‹_›
  · exact sizeOf_branch_lt ‹_›

theorem asides_eq (c : Condition) :
    c.asides = (c.attachments.weak.flatMap fun w => w :: w.asides) ++
      c.form.branches.flatMap asides := by
  obtain ⟨form, a⟩ := c
  cases form <;> simp [asides, Form.branches]

-- The clauses that stand anywhere in a condition.
def everyAtom (c : Condition) : List Clause := c.atoms ++ c.asides.flatMap atoms

-- Something holds of what goes along with a condition and with its branches, at any depth.
def Throughout (P : Attachments Condition → Prop) : Condition → Prop
  | ⟨.alternatives branches, a⟩ => P a ∧ ∀ b ∈ branches, Throughout P b
  | ⟨_, a⟩ => P a

theorem throughout_iff {P : Attachments Condition → Prop} {c : Condition} :
    c.Throughout P ↔ P c.attachments ∧ ∀ b ∈ c.form.branches, b.Throughout P := by
  obtain ⟨form, a⟩ := c
  cases form <;> simp [Throughout, Form.branches]

theorem throughout_of_branches {P : Attachments Condition → Prop} {c : Condition}
    (h : c.form.branches = []) : c.Throughout P ↔ P c.attachments := by
  rw [throughout_iff, h]
  simp

-- What goes along with a condition has no part in its clauses.
theorem atoms_eq_of_form {c d : Condition} (h : c.form = d.form) : c.atoms = d.atoms := by
  obtain ⟨form, a⟩ := c
  obtain ⟨form', b⟩ := d
  cases h
  cases form <;> simp only [atoms]

theorem atoms_of_everything {c : Condition} (h : c.form = .everything) : c.atoms = [] := by
  obtain ⟨form, a⟩ := c
  cases h
  rw [atoms]

theorem atoms_of_nothing {c : Condition} (h : c.form = .nothing) : c.atoms = [] := by
  obtain ⟨form, a⟩ := c
  cases h
  rw [atoms]

theorem atoms_of_pattern {c : Condition} {p : Pattern} (h : c.form = .pattern p) :
    c.atoms = p.atoms := by
  obtain ⟨form, a⟩ := c
  cases h
  rw [atoms]

theorem atoms_of_filter {c : Condition} {f : Filter} (h : c.form = .filter f) : c.atoms = [] := by
  obtain ⟨form, a⟩ := c
  cases h
  rw [atoms]

theorem atoms_of_singleton {c : Condition} {r : Resource} {p : Pattern}
    (h : c.form = .singleton r p) : c.atoms = p.atoms := by
  obtain ⟨form, a⟩ := c
  cases h
  rw [atoms]

theorem form_eq_nothing {c : Condition} : c.form = .nothing ↔ c.isNothing = true := by
  obtain ⟨form, a⟩ := c
  cases form <;> simp [isNothing]

theorem form_eq_everything {c : Condition} : c.form = .everything ↔ c.isEverything = true := by
  obtain ⟨form, a⟩ := c
  cases form <;> simp [isEverything]

-- Conditions that nothing fulfils have no clauses to lose.
theorem flatMap_atoms_filter (conditions : List Condition) :
    (conditions.filter (!·.isNothing)).flatMap atoms = conditions.flatMap atoms := by
  induction conditions with
  | nil => rfl
  | cons c rest ih =>
    cases hc : c.isNothing with
    | true => simp [hc, ih, atoms_of_nothing (form_eq_nothing.mpr hc)]
    | false => simp [hc, ih]

theorem branchPatterns_eq_filterMap (join : Variable) (branches : List Condition) :
    branchPatterns join branches = branches.filterMap (toPattern? join) := by
  induction branches with
  | nil => rfl
  | cons c cs ih =>
    rw [branchPatterns]
    cases h : toPattern? join c with
    | none => rw [List.filterMap_cons_none h, ih]
    | some p => rw [List.filterMap_cons_some h, ih]

theorem nested_induction {P : Condition → Prop}
    (node : ∀ form a, (∀ b ∈ form.branches, P b) → (∀ w ∈ a.weak, P w) → P ⟨form, a⟩)
    (c : Condition) : P c := by
  obtain ⟨form, a⟩ := c
  apply node
  · intro b hb
    exact nested_induction node b
  · intro w hw
    exact nested_induction node w
decreasing_by
  · exact sizeOf_branch_lt hb
  · exact sizeOf_weak_lt hw

theorem toPattern?_eq_none {c : Condition} {join : Variable} :
    c.toPattern? join = none ↔ c.form = .nothing := by
  obtain ⟨form, a⟩ := c
  cases form <;> simp [toPattern?, formPattern?]

theorem toPattern?_eq_of_form {c d : Condition} {join : Variable} (h : c.form = d.form) :
    c.toPattern? join = d.toPattern? join := by
  obtain ⟨form, a⟩ := c
  obtain ⟨form', b⟩ := d
  cases h
  cases form <;> simp only [toPattern?]

theorem isNothing_congr {c d : Condition} (h : c.form = d.form) : c.isNothing = d.isNothing := by
  unfold isNothing
  rw [h]

theorem isNothing_of_toPattern? {c : Condition} {join : Variable} {p : Pattern}
    (h : c.toPattern? join = some p) : c.isNothing = false := by
  cases hnothing : c.isNothing with
  | false => rfl
  | true =>
    have hnone : c.toPattern? join = none := toPattern?_eq_none.mpr (form_eq_nothing.mpr hnothing)
    rw [h] at hnone
    cases hnone

theorem flatMap_filterMap_of_eq {α β γ : Type} {f : α → Option β} {g : β → List γ} {k : α → List γ}
    {l : List α} (hsome : ∀ a ∈ l, ∀ {b}, f a = some b → g b = k a)
    (hnone : ∀ a ∈ l, f a = none → k a = []) : (l.filterMap f).flatMap g = l.flatMap k := by
  induction l with
  | nil => rfl
  | cons a rest ih =>
    have hrest := ih (fun b hb => hsome b (List.mem_cons_of_mem _ hb))
      (fun b hb => hnone b (List.mem_cons_of_mem _ hb))
    cases ha : f a with
    | none =>
      rw [List.filterMap_cons_none ha, List.flatMap_cons, hnone a (by simp) ha, List.nil_append,
        hrest]
    | some b =>
      rw [List.filterMap_cons_some ha, List.flatMap_cons, List.flatMap_cons,
        hsome a (by simp) ha, hrest]

-- A condition and the pattern it becomes have the same clauses. Branches that nothing fulfils are
-- left out of a union, but they have no clauses.
theorem atoms_toPattern? {c : Condition} {join : Variable} {p : Pattern}
    (h : c.toPattern? join = some p) : p.atoms = c.atoms := by
  induction c using nested_induction generalizing p with
  | node form a ih _ =>
    cases form with
    | everything => cases h; simp [atoms]
    | nothing => cases h
    | pattern q => cases h; simp [atoms]
    | filter f => cases h; simp [atoms]
    | singleton r q => cases h; simp [atoms]
    | alternatives branches =>
      cases h
      rw [Pattern.atoms_cons, Pattern.atoms_nil, List.append_nil, Pattern.atoms_union, atoms,
        branchPatterns_eq_filterMap]
      refine flatMap_filterMap_of_eq ih ?_
      intro b _ hb
      exact atoms_of_nothing (toPattern?_eq_none.mp hb)

end Condition

namespace Merge

-- Merges conditions on one variable from the left.
def all? (join : Variable) (conditions : List Condition) : Option Merge :=
  conditions.foldlM (absorb? join) {}

-- What holds of no conditions, and goes on to hold with each one that is taken in, holds of all.
theorem all_induction {join : Variable} {P : List Condition → Merge → Prop} (empty : P [] {})
    (absorb : ∀ done m c m', P done m → m.absorb? join c = some m' → P (done ++ [c]) m')
    {conditions : List Condition} {m : Merge} (h : all? join conditions = some m) :
    P conditions m := by
  have hfold : ∀ rest done m₀, P done m₀ → rest.foldlM (absorb? join) m₀ = some m →
      P (done ++ rest) m := by
    intro rest
    induction rest with
    | nil =>
      intro done m₀ hdone hm
      cases hm
      simpa using hdone
    | cons c rest ih =>
      intro done m₀ hdone hm
      rw [List.foldlM_cons] at hm
      obtain ⟨m₁, habsorb, hrest⟩ := Option.bind_eq_some_iff.mp hm
      simpa using ih (done ++ [c]) m₁ (absorb done m₀ c m₁ hdone habsorb) hrest
  exact hfold conditions [] {} empty h

theorem isSome_conflict? {m : Merge} {c : Condition} :
    (m.conflict? c).isSome = true ↔
      ∃ bound r, m.bound = some bound ∧ c.bound? = some r ∧ bound.identity ≠ r.identity := by
  unfold conflict?
  cases hm : m.bound with
  | none => simp
  | some bound =>
    cases hc : c.bound? with
    | none => simp
    | some r => by_cases hsame : bound.identity = r.identity <;> simp [hsame]

theorem absorb?_eq_none {join : Variable} {m : Merge} {c : Condition} :
    m.absorb? join c = none ↔ c.form = .nothing ∨
      ∃ bound r, m.bound = some bound ∧ c.bound? = some r ∧ bound.identity ≠ r.identity := by
  rw [← isSome_conflict?]
  obtain ⟨form, a⟩ := c
  unfold absorb?
  split
  · simp [*]
  · cases form <;> simp [*]

-- What a condition adds to those merged before it.
theorem absorb?_cases {join : Variable} {m m' : Merge} {c : Condition}
    (h : m.absorb? join c = some m') :
    ∃ p f, m' = ⟨m.pattern ++ p, m.filter ++ f, m.bound.or c.bound?,
        m.attachments.merge c.attachments⟩ ∧
      ((c.form = .everything ∧ p = [] ∧ f = []) ∨ (c.form = .filter f ∧ p = []) ∨
        (c.form = .pattern p ∧ f = []) ∨ (∃ r, c.form = .singleton r p ∧ f = []) ∨
        ∃ branches, c.form = .alternatives branches ∧ c.toPattern? join = some p ∧ f = []) := by
  obtain ⟨form, a⟩ := c
  unfold absorb? at h
  split at h
  · cases h
  · cases form with
    | nothing => cases h
    | everything =>
      cases h
      exact ⟨[], [], by simp [Condition.bound?], .inl ⟨rfl, rfl, rfl⟩⟩
    | filter f =>
      cases h
      exact ⟨[], f, by simp [Condition.bound?], .inr (.inl ⟨rfl, rfl⟩)⟩
    | pattern p =>
      cases h
      exact ⟨p, [], by simp [Condition.bound?], .inr (.inr (.inl ⟨rfl, rfl⟩))⟩
    | singleton r p =>
      cases h
      exact ⟨p, [], by simp [Condition.bound?], .inr (.inr (.inr (.inl ⟨r, rfl, rfl⟩)))⟩
    | alternatives branches =>
      cases h
      exact ⟨_, [], by simp [Condition.bound?],
        .inr (.inr (.inr (.inr ⟨branches, rfl, rfl, rfl⟩)))⟩

theorem atoms_absorb? {join : Variable} {m m' : Merge} {condition : Condition}
    (h : m.absorb? join condition = some m') :
    m'.pattern.atoms = m.pattern.atoms ++ condition.atoms := by
  obtain ⟨p, f, rfl, hcases⟩ := absorb?_cases h
  have hadded : p.atoms = condition.atoms := by
    rcases hcases with ⟨hform, rfl, -⟩ | ⟨hform, rfl⟩ | ⟨hform, -⟩ | ⟨r, hform, -⟩ |
      ⟨branches, -, hgroup, -⟩
    · exact (Condition.atoms_of_everything hform).symm
    · exact (Condition.atoms_of_filter hform).symm
    · exact (Condition.atoms_of_pattern hform).symm
    · exact (Condition.atoms_of_singleton hform).symm
    · exact Condition.atoms_toPattern? hgroup
  rw [Pattern.atoms_append, hadded]

theorem atoms_all? {join : Variable} {conditions : List Condition} {m : Merge}
    (h : all? join conditions = some m) :
    m.pattern.atoms = conditions.flatMap Condition.atoms := by
  refine all_induction (P := fun done m => m.pattern.atoms = done.flatMap Condition.atoms)
    rfl ?_ h
  intro done m c m' hdone habsorb
  rw [atoms_absorb? habsorb, hdone, List.flatMap_append, List.flatMap_singleton]

theorem atoms_finish (m : Merge) : m.finish.atoms = m.pattern.atoms := by
  unfold finish form
  cases m.bound with
  | some r => simp [Condition.atoms]
  | none =>
    by_cases hp : m.pattern = []
    · by_cases hf : m.filter = [] <;> simp [hp, hf, Condition.atoms]
    · simp [hp, Condition.atoms]

theorem attachments_all? {join : Variable} {conditions : List Condition} {m : Merge}
    (h : all? join conditions = some m) :
    m.attachments = conditions.foldl (fun a b => a.merge b.attachments) {} := by
  refine all_induction (P := fun done m =>
    m.attachments = done.foldl (fun a b => a.merge b.attachments) {}) rfl ?_ h
  intro done m c m' hdone habsorb
  obtain ⟨p, f, rfl, -⟩ := absorb?_cases habsorb
  rw [List.foldl_append, ← hdone]
  rfl

theorem isNothing_of_all? {join : Variable} {conditions : List Condition} {m : Merge}
    (h : all? join conditions = some m) :
    ∀ c ∈ conditions, c.isNothing = false := by
  refine all_induction (P := fun done _ => ∀ c ∈ done, c.isNothing = false) (by simp) ?_ h
  intro done m c m' hdone habsorb
  refine List.forall_mem_append.mpr ⟨hdone, List.forall_mem_singleton.mpr ?_⟩
  cases hnothing : c.isNothing with
  | false => rfl
  | true =>
    have hnone : m.absorb? join c = none :=
      absorb?_eq_none.mpr (.inl (Condition.form_eq_nothing.mpr hnothing))
    rw [habsorb] at hnone
    cases hnone

theorem finish_cases (m : Merge) :
    m.finish.isNothing = false ∧ m.finish.form.branches = [] := by
  unfold finish form
  cases m.bound with
  | some r => exact ⟨rfl, rfl⟩
  | none =>
    by_cases hp : m.pattern = [] <;> by_cases hf : m.filter = [] <;>
      simp [hp, hf, Condition.isNothing, Form.branches]

end Merge

namespace Compiler

@[simp] theorem form_attachSort (c : Compiler) (keys : SortKeys) (join : Variable)
    (target : Option SortTarget) (datatype : Datatype) (condition : Condition) :
    (c.attachSort keys join target datatype condition).form = condition.form := by
  unfold attachSort
  cases target with
  | none => rfl
  | some target =>
    dsimp only
    split_ifs <;> rfl

@[simp] theorem form_attachRequested (c : Compiler) (keys : SortKeys) (join : Variable)
    (target : Option SortTarget) (condition : Condition) :
    (c.attachRequested keys join target condition).form = condition.form :=
  form_attachSort ..

theorem atoms_attachRequested (c : Compiler) (keys : SortKeys) (join : Variable)
    (target : Option SortTarget) (condition : Condition) :
    (c.attachRequested keys join target condition).atoms = condition.atoms :=
  Condition.atoms_eq_of_form (c.form_attachRequested keys join target condition)

theorem atoms_alternativesCondition (branches : List Condition) :
    (alternativesCondition branches).atoms = branches.flatMap Condition.atoms := by
  match branches with
  | [] => simp [alternativesCondition, Condition.nothing, Condition.atoms]
  | [branch] => simp [alternativesCondition]
  | first :: second :: rest =>
    change Condition.atoms ⟨.alternatives (first :: second :: rest), _⟩ = _
    rw [Condition.atoms]

end Compiler

end WikiQuery
