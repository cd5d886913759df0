import WikiQuery.Compile.Session
import WikiQuery.Proofs.Condition.Scope

namespace WikiQuery

universe u

-- A side of a comparison, once variables stand for entities.
inductive Datum (E : Type u) where
  | entity (e : E)
  | field (name : String) (e : E)
  | value (x : Value)
  | text (s : String)

-- What queries speak of. Categories and properties are taken with what lies below them down to a
-- depth, and every atom of a comparison or of a match on an entity has a truth value of its own.
structure Interpretation (E : Type u) where
  denotes : Resource → E
  space : E → Int32
  member : List Nat → UInt32 → E → Prop
  -- the second entity is a value of the property for the first one
  related : Property → UInt32 → E → E → Prop
  valued : Property → UInt32 → E → Prop
  sortedBy : E → E → Prop
  compares : Datum E → Relation → Datum E → Prop
  fits : Datum E → String → Bool → Prop
  denotes_eq_iff : ∀ r t, denotes r = denotes t ↔ r.identity = t.identity
  compares_page : ∀ e r, compares (.entity e) .eq (.value (.page r)) ↔ e = denotes r

namespace SubqueryTable

-- The property and the depth that a clause asks for: its own property without any depth, or those
-- of the closure that it refers to.
def propertyAt? (t : SubqueryTable) (p : Property) : Option SubqueryId → Option (Property × UInt32)
  | none => some (p, 0)
  | some id => match t.get? id with
    | some (.property q _ depth) => some (q, depth)
    | _ => none

def categoriesAt? (t : SubqueryTable) (ids : List Nat) :
    Option SubqueryId → Option (List Nat × UInt32)
  | none => some (ids, 0)
  | some id => match t.get? id with
    | some (.categories known depth) => some (known, depth)
    | _ => none

end SubqueryTable

variable {E : Type u} (I : Interpretation E) (t : SubqueryTable) (σ : Variable → E)

def Operand.datum : Operand → Datum E
  | .entity v => .entity (σ v)
  | .field name v => .field name (σ v)
  | .value x => .value x
  | .text s => .text s

def Test.Holds : Test → Prop
  | .compare left relation right => I.compares (left.datum σ) relation (right.datum σ)
  | .regex operand pattern negated => I.fits (operand.datum σ) pattern negated

def Filter.Holds (f : Filter) : Prop := ∀ test ∈ f, test.Holds I σ

def Term.entityOf : Term → E
  | .entity v => σ v
  | .resource r => I.denotes r

-- A clause holds where the variables stand for entities that are as it says. A reference that leads
-- nowhere, or to a closure of the other kind, holds of nothing.
def Clause.Holds : Clause → Prop
  | .triple s p o closure => ∃ closed, t.propertyAt? p closure = some closed ∧
    I.related closed.1 closed.2 (s.entityOf I σ) (o.entityOf I σ)
  | .hasValue v p closure => ∃ closed, t.propertyAt? p closure = some closed ∧
    I.valued closed.1 closed.2 (σ v)
  | .inNamespace v number => I.space (σ v) = number
  | .inCategory v ids closure => ∃ closed, t.categoriesAt? ids closure = some closed ∧
    I.member closed.1 closed.2 (σ v)
  | .sortKey v key => I.sortedBy (σ v) (σ key)
  | .filter f => Filter.Holds I σ f
  | .union groups => ∃ (group : Pattern) (_ : group ∈ groups), ∀ clause ∈ group, Holds clause
decreasing_by exact sizeOf_lt_union ‹_› ‹_›

def Pattern.Holds (p : Pattern) : Prop := ∀ clause ∈ p, clause.Holds I t σ

def Condition.Holds (join : Variable) : Condition → Prop
  | ⟨.everything, _⟩ => True
  | ⟨.nothing, _⟩ => False
  | ⟨.pattern p, _⟩ => Pattern.Holds I t σ p
  | ⟨.filter f, _⟩ => Filter.Holds I σ f
  | ⟨.singleton r p, _⟩ => σ join = I.denotes r ∧ Pattern.Holds I t σ p
  | ⟨.alternatives branches, _⟩ => ∃ (b : Condition) (_ : b ∈ branches), Holds join b

-- The entities that a query finds.
def Query.Selects (q : Query) (e : E) : Prop :=
  ∃ σ : Variable → E, σ q.result = e ∧ q.condition.Holds I q.subqueries σ q.result

variable {I t σ} {join : Variable} {p q : Pattern} {f g : Filter} {c : Condition}

namespace Filter

@[simp] theorem holds_nil : Filter.Holds I σ [] := by
  simp [Holds]

@[simp] theorem holds_append :
    Filter.Holds I σ (f ++ g) ↔ Filter.Holds I σ f ∧ Filter.Holds I σ g :=
  List.forall_mem_append

theorem holds_singleton {test : Test} : Filter.Holds I σ [test] ↔ test.Holds I σ := by
  simp [Holds]

end Filter

theorem Test.holds_binds {r : Resource} :
    (Test.binds join r).Holds I σ ↔ σ join = I.denotes r :=
  I.compares_page (σ join) r

namespace Pattern

@[simp] theorem holds_nil : Pattern.Holds I t σ [] := by
  simp [Holds]

@[simp] theorem holds_cons {clause : Clause} :
    Pattern.Holds I t σ (clause :: p) ↔ clause.Holds I t σ ∧ Pattern.Holds I t σ p :=
  List.forall_mem_cons

@[simp] theorem holds_append :
    Pattern.Holds I t σ (p ++ q) ↔ Pattern.Holds I t σ p ∧ Pattern.Holds I t σ q :=
  List.forall_mem_append

theorem holds_union {groups : List Pattern} :
    (Clause.union groups).Holds I t σ ↔ ∃ group ∈ groups, Pattern.Holds I t σ group := by
  simp only [Clause.Holds, exists_prop, Holds]

@[simp] theorem holds_addFilter :
    Pattern.Holds I t σ (p.addFilter f) ↔ Pattern.Holds I t σ p ∧ Filter.Holds I σ f := by
  unfold addFilter
  by_cases hf : f = []
  · simp [hf]
  · simp [hf, Clause.Holds]

end Pattern

namespace Condition

theorem holds_of_everything (h : c.form = .everything) : c.Holds I t σ join := by
  obtain ⟨form, a⟩ := c
  cases h
  simp [Holds]

theorem not_holds_of_nothing (h : c.form = .nothing) : ¬ c.Holds I t σ join := by
  obtain ⟨form, a⟩ := c
  cases h
  simp [Holds]

theorem holds_of_pattern (h : c.form = .pattern p) :
    c.Holds I t σ join ↔ Pattern.Holds I t σ p := by
  obtain ⟨form, a⟩ := c
  cases h
  rw [Holds]

theorem holds_of_filter (h : c.form = .filter f) : c.Holds I t σ join ↔ Filter.Holds I σ f := by
  obtain ⟨form, a⟩ := c
  cases h
  rw [Holds]

theorem holds_of_singleton {r : Resource} (h : c.form = .singleton r p) :
    c.Holds I t σ join ↔ σ join = I.denotes r ∧ Pattern.Holds I t σ p := by
  obtain ⟨form, a⟩ := c
  cases h
  rw [Holds]

theorem holds_of_alternatives {branches : List Condition} (h : c.form = .alternatives branches) :
    c.Holds I t σ join ↔ ∃ b ∈ branches, b.Holds I t σ join := by
  obtain ⟨form, a⟩ := c
  cases h
  simp only [Holds, exists_prop]

theorem holds_congr {d : Condition} (h : c.form = d.form) :
    c.Holds I t σ join ↔ d.Holds I t σ join := by
  obtain ⟨form, a⟩ := c
  obtain ⟨form', b⟩ := d
  cases h
  cases form <;> simp only [Holds]

theorem denotes_of_bound? {r : Resource} (h : c.bound? = some r) (hc : c.Holds I t σ join) :
    σ join = I.denotes r := by
  obtain ⟨form, a⟩ := c
  cases form with
  | singleton r' p =>
    cases h
    exact ((holds_of_singleton rfl).mp hc).1
  | _ => cases h

-- The pattern that stands for a condition holds where the condition does. In a union the branches
-- without a pattern are missing, but they hold nowhere.
theorem holds_toPattern? (h : c.toPattern? join = some p) :
    Pattern.Holds I t σ p ↔ c.Holds I t σ join := by
  induction c using nested_induction generalizing p with
  | node form a ih _ =>
    cases form with
    | everything =>
      cases h
      simp [Holds]
    | nothing => cases h
    | pattern q =>
      cases h
      rw [Holds]
    | filter f =>
      cases h
      simp [Holds]
    | singleton r q =>
      cases h
      rw [Pattern.holds_addFilter, Filter.holds_singleton, Test.holds_binds, Holds, and_comm]
    | alternatives branches =>
      cases h
      rw [holds_of_alternatives rfl, Pattern.holds_cons, Pattern.holds_union,
        branchPatterns_eq_filterMap]
      constructor
      · intro hholds
        obtain ⟨⟨group, hgroup, hholds⟩, -⟩ := hholds
        obtain ⟨b, hb, hgroup⟩ := List.mem_filterMap.mp hgroup
        exact ⟨b, hb, (ih b hb hgroup).mp hholds⟩
      · intro hholds
        obtain ⟨b, hb, hholds⟩ := hholds
        cases hgroup : b.toPattern? join with
        | none => exact absurd hholds (not_holds_of_nothing (toPattern?_eq_none.mp hgroup))
        | some group =>
          exact ⟨⟨group, List.mem_filterMap.mpr ⟨b, hb, hgroup⟩, (ih b hb hgroup).mpr hholds⟩,
            Pattern.holds_nil⟩

-- Only a condition that nothing fulfils has no pattern, and the pattern of any other one says the
-- same. Alternatives without a branch become a union without a group, which holds nowhere, and a
-- condition that everything fulfils becomes a group without a clause, which holds everywhere.
theorem group_holds_iff (I : Interpretation E) (t : SubqueryTable) (σ : Variable → E)
    (join : Variable) (c : Condition) :
    (c.toPattern? join = none ↔ c.form = .nothing) ∧
    ∀ p, c.toPattern? join = some p → (Pattern.Holds I t σ p ↔ c.Holds I t σ join) :=
  ⟨toPattern?_eq_none, fun _ => holds_toPattern?⟩

end Condition

end WikiQuery
