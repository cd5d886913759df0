import WikiQuery.Proofs.Compile.Rules
import WikiQuery.Proofs.Condition.Scope

namespace WikiQuery

theorem Progress.close_cases {s s' : Progress} {depth : UInt32} {q : Subquery}
    {closure : Option SubqueryId} (h : s.close depth q = (closure, s')) :
    (depth = 0 ∧ closure = none ∧ s' = s) ∨
    (closure = some (s.subqueries.register q).1 ∧
      s' = ⟨s.counter, (s.subqueries.register q).2⟩) := by
  unfold close at h
  by_cases hdepth : depth = 0
  · simp only [hdepth, ite_true, Prod.mk.injEq] at h
    exact .inl ⟨hdepth, h.1.symm, h.2.symm⟩
  · simp only [hdepth, ite_false, Prod.mk.injEq] at h
    exact .inr ⟨h.1.symm, h.2.symm⟩

namespace Compiler

variable {c : Compiler} {join : Variable} {p : Property}

-- A test of a stored field of the variable's entity, against a text or a value that is no page.
def TestsField (v : Variable) : Test → Prop
  | .compare (.field _ w) _ (.text _) => w = v
  | .compare (.field _ w) _ (.value x) => w = v ∧ x.resource? = none
  | .regex (.field _ w) _ _ => w = v
  | _ => False

theorem testsField_comparison (relation : Relation) (x : Value) :
    ∃ test, c.comparison join p relation x = .ofFilter [test] ∧ TestsField join test := by
  unfold comparison
  cases hx : x.resource? with
  | none => exact ⟨_, rfl, rfl, hx⟩
  | some r => exact ⟨_, rfl, rfl⟩

-- Only a page that is compared for equality is compared as such.
theorem valueCondition?_tests {comparator : Comparator} {x : Value} {condition : Condition}
    (h : c.valueCondition? join p comparator x = some condition) :
    (∃ r, x = .page r ∧
      condition = { form := .singleton r [], attachments := { safe := true } }) ∨
    (∃ test, condition = .ofFilter [test] ∧ TestsField join test) := by
  unfold valueCondition? at h
  split at h
  · cases h
  · cases h
    exact .inr ⟨_, rfl, rfl⟩
  · cases h
  · cases h
    exact .inr ⟨_, rfl, rfl⟩
  · cases h
  · cases h
    exact .inl ⟨_, rfl, rfl⟩
  · obtain ⟨relation, -, rfl⟩ := Option.map_eq_some_iff.mp h
    exact .inr (testsField_comparison relation x)

theorem TestsField.variables {v : Variable} {test : Test} (h : TestsField v test) :
    test.variables = [v] := by
  unfold TestsField at h
  split at h
  · simp [Test.variables, Operand.variables, h]
  · simp [Test.variables, Operand.variables, h.1]
  · simp [Test.variables, Operand.variables, h]
  · cases h

-- A comparison with a value either binds the variable to a resource, or tests a field of it.
theorem valueCondition?_cases {comparator : Comparator} {x : Value} {condition : Condition}
    (h : c.valueCondition? join p comparator x = some condition) :
    (∃ r, condition = { form := .singleton r [], attachments := { safe := true } }) ∨
    (∃ test, condition = .ofFilter [test] ∧ test.variables = [join]) := by
  rcases valueCondition?_tests h with ⟨r, -, hr⟩ | ⟨test, htest, hfield⟩
  · exact .inl ⟨r, hr⟩
  · exact .inr ⟨test, htest, hfield.variables⟩

theorem form_declareValue (x : Value) (condition : Condition) :
    (declareValue x condition).form = condition.form := by
  unfold declareValue
  split <;> rfl

theorem weak_declareValue (x : Value) (condition : Condition) :
    (declareValue x condition).attachments.weak = condition.attachments.weak := by
  unfold declareValue
  split <;> rfl

theorem sortVariables_declareValue (x : Value) (condition : Condition) :
    (declareValue x condition).attachments.sortVariables =
      condition.attachments.sortVariables := by
  unfold declareValue
  split <;> rfl

-- Before a sort is attached, the condition for a comparison with a value has one of three forms.
theorem comparedCondition_cases (c : Compiler) (keys : SortKeys) (join : Variable)
    (target : Option SortTarget) (p : Property) (comparator : Comparator) (x : Value) :
    ∃ condition, c.comparedCondition keys join target p comparator x =
        c.attachSort keys join target x.datatype condition ∧
      condition.attachments.weak = [] ∧ condition.attachments.sortVariables = ∅ ∧
      (condition.form = .everything ∨ (∃ r, condition.form = .singleton r []) ∨
        ∃ test : Test, condition.form = .filter [test] ∧ test.variables = [join]) := by
  refine ⟨_, rfl, ?_⟩
  cases h : c.valueCondition? join p comparator x with
  | none => exact ⟨rfl, rfl, .inl rfl⟩
  | some condition =>
    dsimp only
    rw [form_declareValue, weak_declareValue, sortVariables_declareValue]
    rcases valueCondition?_cases h with ⟨r, rfl⟩ | ⟨test, rfl, htest⟩
    · exact ⟨rfl, rfl, .inr (.inl ⟨r, rfl⟩)⟩
    · exact ⟨rfl, rfl, .inr (.inr ⟨test, rfl, htest⟩)⟩

theorem comparedCondition_eq (c : Compiler) (keys : SortKeys) (join : Variable)
    (target : Option SortTarget) (p : Property) (comparator : Comparator) (x : Value) :
    ∃ condition, c.comparedCondition keys join target p comparator x =
        c.attachSort keys join target x.datatype condition ∧
      condition.isNothing = false ∧ condition.form.branches = [] ∧
      condition.attachments.weak = [] ∧ condition.attachments.sortVariables = ∅ := by
  obtain ⟨condition, heq, hweak, hsorts, hform⟩ :=
    c.comparedCondition_cases keys join target p comparator x
  refine ⟨condition, heq, ?_, ?_, hweak, hsorts⟩
  · rcases hform with hform | ⟨r, hform⟩ | ⟨test, hform, -⟩ <;> simp [Condition.isNothing, hform]
  · rcases hform with hform | ⟨r, hform⟩ | ⟨test, hform, -⟩ <;> simp [Form.branches, hform]

theorem form_everything (c : Compiler) (keys : SortKeys) (join : Variable)
    (target : Option SortTarget) : (c.everything keys join target).form = .everything :=
  form_attachSort ..

theorem form_namespaceCondition (c : Compiler) (keys : SortKeys) (join : Variable)
    (target : Option SortTarget) (number : Int32) :
    (c.namespaceCondition keys join target number).form = .pattern [.inNamespace join number] :=
  form_attachSort ..

theorem form_categoryCondition (c : Compiler) (keys : SortKeys) (join : Variable)
    (target : Option SortTarget) (ids : List Nat) (closure : Option SubqueryId) :
    (c.categoryCondition keys join target ids closure).form =
      .pattern [.inCategory join ids closure] :=
  form_attachSort ..

-- Before a sort is attached, the sorts of the inner condition go along with a property.
theorem propertyCondition_eq (c : Compiler) (keys : SortKeys) (join : Variable)
    (target : Option SortTarget) (p : Property) (clause : Clause) (inner : Condition)
    (group : Pattern) :
    ∃ condition, c.propertyCondition keys join target p clause inner group =
        c.attachSort keys join target .page condition ∧
      condition.form = .pattern (clause :: group) ∧
      condition.attachments.weak = inner.attachments.weak ∧
      condition.attachments.sortVariables = inner.attachments.sortVariables := by
  refine ⟨_, rfl, ?_⟩
  cases p.vocabulary <;> exact ⟨rfl, rfl, rfl⟩

theorem form_propertyCondition (c : Compiler) (keys : SortKeys) (join : Variable)
    (target : Option SortTarget) (p : Property) (clause : Clause) (inner : Condition)
    (group : Pattern) :
    (c.propertyCondition keys join target p clause inner group).form =
      .pattern (clause :: group) := by
  obtain ⟨condition, heq, hform, -⟩ := c.propertyCondition_eq keys join target p clause inner group
  rw [heq, form_attachSort, hform]

theorem form_comparedCondition (c : Compiler) (keys : SortKeys) (join : Variable)
    (target : Option SortTarget) (p : Property) (comparator : Comparator) (x : Value) :
    (c.comparedCondition keys join target p comparator x).form = .everything ∨
    (∃ r, (c.comparedCondition keys join target p comparator x).form = .singleton r []) ∨
    ∃ test : Test, (c.comparedCondition keys join target p comparator x).form = .filter [test] ∧
      test.variables = [join] := by
  obtain ⟨condition, heq, -, -, hform⟩ := c.comparedCondition_cases keys join target p comparator x
  rw [heq, form_attachSort]
  exact hform

theorem atoms_link (join : Variable) (p : Property) (v : Variable) (closure : Option SubqueryId) :
    (link join p v closure).atoms = [link join p v closure] := by
  unfold link
  cases p.inverse <;> simp [Clause.atoms]

-- What a property begins with: a closure, and then a fresh variable for a page, or the same one.
theorem opening_cases {info : PropertyInfo} {s s₁ : Progress} {clause : Clause} {v : Variable}
    (h : c.opening join p info s = ((clause, v), s₁)) :
    ∃ closure s₀, s.close c.settings.propertyDepth
        (.property p info.id c.settings.propertyDepth) = (closure, s₀) ∧
      ((info.datatype.isPage = true ∧ v = c.numbered (s₀.counter + 1) ∧
          clause = link join p v closure ∧ s₁ = ⟨s₀.counter + 1, s₀.subqueries⟩) ∨
        (info.datatype.isPage = false ∧ v = join ∧ clause = .hasValue join p closure ∧
          s₁ = s₀)) := by
  refine ⟨_, _, rfl, ?_⟩
  unfold opening at h
  cases hpage : info.datatype.isPage with
  | true =>
    simp only [hpage, ite_true, Prod.mk.injEq] at h
    obtain ⟨⟨rfl, rfl⟩, rfl⟩ := h
    exact .inl ⟨rfl, rfl, rfl, rfl⟩
  | false =>
    simp only [hpage, Bool.false_eq_true, ite_false, Prod.mk.injEq] at h
    obtain ⟨⟨rfl, rfl⟩, rfl⟩ := h
    exact .inr ⟨rfl, rfl, rfl, rfl⟩

end Compiler

end WikiQuery
