import WikiQuery.Proofs.Compile.Leaf

namespace WikiQuery.Compiler

variable {c : Compiler} {keys : SortKeys}

-- A relation between a progress, the clauses that are compiled from there on, and the progress
-- behind them, which can be followed from clause to clause and keeps nothing of what is dropped.
structure Trace (c : Compiler) (P : Progress → List Clause → Progress → Prop) : Prop where
  refl : ∀ s, P s [] s
  trans : ∀ {s s₁ s₂ first second}, P s first s₁ → P s₁ second s₂ → P s (first ++ second) s₂
  rollback : ∀ {s s' clauses}, P s clauses s' → P s [] (s'.rollback s.subqueries.size)
  inNamespace : ∀ s join number, P s [.inNamespace join number] s
  inCategory : ∀ {s s' join ids closure},
    s.close c.settings.categoryDepth (.categories ids c.settings.categoryDepth) = (closure, s') →
    P s [.inCategory join ids closure] s'
  opening : ∀ {s s₁ join p info clause v}, c.catalog.property? p = some info →
    c.opening join p info s = ((clause, v), s₁) → P s [clause] s₁

theorem Trace.chain {P : Progress → List Clause → Progress → Prop} (hP : c.Trace P)
    {parts : List Description} {conditions : List Condition} {s s' : Progress}
    (chain : Chain (fun _ s condition s' => P s (Condition.atoms condition) s') parts s conditions
      s') : P s (conditions.flatMap Condition.atoms) s' := by
  induction chain with
  | nil => exact hP.refl _
  | cons first _ ih => exact hP.trans first ih

theorem atoms_opening {join v : Variable} {p : Property} {info : PropertyInfo} {s s₁ : Progress}
    {clause : Clause} (h : c.opening join p info s = ((clause, v), s₁)) :
    clause.atoms = [clause] := by
  obtain ⟨closure, s₀, -, ⟨-, -, rfl, -⟩ | ⟨-, -, rfl, -⟩⟩ := opening_cases h
  · exact atoms_link ..
  · simp [Clause.atoms]

theorem atoms_comparedCondition (join : Variable) (target : Option SortTarget) (p : Property)
    (comparator : Comparator) (x : Value) :
    (c.comparedCondition keys join target p comparator x).atoms = [] := by
  rcases c.form_comparedCondition keys join target p comparator x with h | ⟨r, h⟩ | ⟨test, h, -⟩
  · exact Condition.atoms_of_everything h
  · exact Condition.atoms_of_singleton h
  · exact Condition.atoms_of_filter h

-- The clauses of what is compiled lead from the progress before it to the one behind it.
theorem Compiles.trace {P : Progress → List Clause → Progress → Prop} (hP : c.Trace P)
    {path : List Page} {d : Description} {join : Variable} {target : Option SortTarget}
    {s s' : Progress} {condition : Condition}
    (h : Compiles c keys path d join target s condition s') : P s condition.atoms s' := by
  have hnothing : Condition.nothing.atoms = [] := Condition.atoms_of_nothing rfl
  have heverything : ∀ join target, (c.everything keys join target).atoms = [] :=
    fun join target => Condition.atoms_of_everything (c.form_everything keys join target)
  induction h with
  | thing =>
    rw [heverything]
    exact hP.refl _
  | inNamespace number =>
    rw [Condition.atoms_of_pattern (c.form_namespaceCondition ..)]
    simp only [Pattern.atoms_cons, Pattern.atoms_nil, Clause.atoms]
    exact hP.inNamespace _ _ number
  | noCategory _ =>
    rw [hnothing]
    exact hP.refl _
  | inCategory _ hclose =>
    rw [Condition.atoms_of_pattern (c.form_categoryCondition ..)]
    simp only [Pattern.atoms_cons, Pattern.atoms_nil, Clause.atoms]
    exact hP.inCategory hclose
  | noConcept _ =>
    rw [hnothing]
    exact hP.refl _
  | concept _ _ ih => exact ih
  | value p comparator x =>
    rw [atoms_comparedCondition]
    exact hP.refl _
  | noProperty _ =>
    rw [hnothing]
    exact hP.refl _
  | someProperty hp hopen _ hgroup ih =>
    rw [Condition.atoms_of_pattern (c.form_propertyCondition ..), Pattern.atoms_cons,
      atoms_opening hopen, Condition.atoms_toPattern? hgroup]
    exact hP.trans (hP.opening hp hopen) ih
  | emptyProperty hp hopen _ _ ih =>
    rw [hnothing]
    exact hP.rollback (hP.trans (hP.opening hp hopen) ih)
  | conjunctionNone =>
    rw [heverything]
    exact hP.refl _
  | conjunctionOne _ ih => exact ih
  | conjunction _ _ chain hmerge ih =>
    rw [atoms_attachRequested, Merge.atoms_finish, Merge.atoms_all? hmerge]
    exact hP.chain (chain.imp ih)
  | clash _ _ chain _ _ _ ih ihpart =>
    rw [hnothing]
    exact hP.rollback (hP.trans (hP.chain (chain.imp ih)) ihpart)
  | disjunction _ chain _ ih =>
    rw [atoms_attachRequested, atoms_alternativesCondition, Condition.flatMap_atoms_filter]
    exact hP.chain (chain.imp ih)
  | saturation _ chain _ _ _ ih ihpart =>
    rw [heverything]
    exact hP.rollback (hP.trans (hP.chain (chain.imp ih)) ihpart)

end WikiQuery.Compiler
