import WikiQuery.Proofs.Compile.Adequacy
import WikiQuery.Proofs.Compile.Weak
import WikiQuery.Proofs.Condition.Normal

namespace WikiQuery

theorem nodup_eraseDups {α : Type} [BEq α] [LawfulBEq α] (l : List α) : l.eraseDups.Nodup := by
  induction hn : l.length using Nat.strongRecOn generalizing l with
  | ind n ih =>
    cases l with
    | nil => simp
    | cons a rest =>
      have hlen := List.length_filter_le (fun b => !b == a) rest
      rw [List.eraseDups_cons, List.nodup_cons]
      refine ⟨by simp [List.mem_eraseDups], ih _ ?_ _ rfl⟩
      rw [← hn, List.length_cons]
      omega

namespace Compiler

variable {c : Compiler} {keys : SortKeys} {join : Variable} {target : Option SortTarget}

-- A sort adds weak conditions and sort variables only, and nothing where there is nothing to sort.
theorem normal_attachSort {datatype : Datatype} {condition : Condition} (h : condition.Normal) :
    (c.attachSort keys join target datatype condition).Normal := by
  unfold attachSort
  cases target with
  | none => exact h
  | some target =>
    dsimp only
    split_ifs with hskip
    · exact h
    all_goals
      have hform : condition.isNothing = false := by
        cases hnothing : condition.isNothing <;> simp_all
      exact h.withAttachments hform rfl rfl

theorem normal_everything (c : Compiler) (keys : SortKeys) (join : Variable)
    (target : Option SortTarget) : (c.everything keys join target).Normal :=
  normal_attachSort ((Condition.normal_of_everything rfl).mpr ⟨rfl, rfl⟩)

theorem normal_namespaceCondition (number : Int32) :
    (c.namespaceCondition keys join target number).Normal := by
  refine (Condition.normal_of_pattern (form_namespaceCondition ..)).mpr ⟨by simp, ?_⟩
  exact Pattern.normal_singleton.mpr (by simp [Clause.Normal])

theorem normal_categoryCondition {categories : List Page} {closure : Option SubqueryId}
    (h : c.catalog.known categories ≠ []) :
    (c.categoryCondition keys join target (c.catalog.known categories) closure).Normal := by
  refine (Condition.normal_of_pattern (form_categoryCondition ..)).mpr ⟨by simp, ?_⟩
  refine Pattern.normal_singleton.mpr ?_
  rw [Clause.Normal]
  exact ⟨h, nodup_eraseDups _⟩

-- A comparator without effect leaves no trace of the value that it was given.
theorem normal_comparedCondition (p : Property) (comparator : Comparator) (x : Value) :
    (c.comparedCondition keys join target p comparator x).Normal := by
  apply normal_attachSort
  cases h : c.valueCondition? join p comparator x with
  | none => exact (Condition.normal_of_everything rfl).mpr ⟨rfl, rfl⟩
  | some condition =>
    have hform := form_declareValue x condition
    rcases valueCondition?_cases h with ⟨r, rfl⟩ | ⟨test, rfl, -⟩
    · exact (Condition.normal_of_singleton hform).mpr (by simp [Pattern.Normal])
    · exact (Condition.normal_of_filter hform).mpr (by simp)

theorem normal_opening {v : Variable} {p : Property} {info : PropertyInfo} {s s₁ : Progress}
    {clause : Clause} (h : c.opening join p info s = ((clause, v), s₁)) : clause.Normal := by
  obtain ⟨closure, s₀, -, ⟨-, -, rfl, -⟩ | ⟨-, -, rfl, -⟩⟩ := opening_cases h
  · unfold link
    split <;> simp [Clause.Normal]
  · simp [Clause.Normal]

theorem normal_propertyCondition {v : Variable} {p : Property} {info : PropertyInfo}
    {s s₁ : Progress} {clause : Clause} {inner : Condition} {group : Pattern}
    (hopen : c.opening join p info s = ((clause, v), s₁)) (hinner : inner.Normal)
    (hgroup : inner.toPattern? v = some group) :
    (c.propertyCondition keys join target p clause inner group).Normal := by
  refine (Condition.normal_of_pattern (form_propertyCondition ..)).mpr ⟨by simp, ?_⟩
  exact List.forall_mem_cons.mpr ⟨normal_opening hopen, (hinner.toPattern? hgroup).1⟩

theorem Compiles.normal {path : List Page} {d : Description} {s s' : Progress}
    {condition : Condition} (h : Compiles c keys path d join target s condition s') :
    condition.Normal := by
  induction h with
  | thing => exact normal_everything ..
  | inNamespace number => exact normal_namespaceCondition number
  | noCategory _ => exact Condition.normal_nothing
  | inCategory hknown _ => exact normal_categoryCondition hknown
  | noConcept _ => exact Condition.normal_nothing
  | concept _ _ ih => exact ih
  | value p comparator x => exact normal_comparedCondition p comparator x
  | noProperty _ => exact Condition.normal_nothing
  | someProperty _ hopen _ hgroup ih => exact normal_propertyCondition hopen ih hgroup
  | emptyProperty => exact Condition.normal_nothing
  | conjunctionNone => exact normal_everything ..
  | conjunctionOne _ ih => exact ih
  | conjunction _ _ chain hmerge ih =>
    exact normal_attachSort (Merge.normal_all? (chain.forall_result ih) hmerge).finish
  | clash => exact Condition.normal_nothing
  | disjunction _ chain hconditions ih =>
    apply normal_attachSort
    apply normal_alternativesCondition
    intro b hb
    obtain ⟨hb, hnothing⟩ := List.mem_filter.mp hb
    exact ⟨hconditions b hb, by simpa using hnothing, chain.forall_result ih b hb⟩
  | saturation => exact normal_everything ..

-- Whatever is compiled, after whatever was compiled before it, its condition is in normal form, and
-- the conditions that go along with it anywhere bind sort keys and do nothing else.
theorem compile_normal (c : Compiler) (hc : c.Standard) (keys : SortKeys) (path : List Page)
    (d : Description) (join : Variable) (target : Option SortTarget) (w : Work) :
    ∃ condition w', (c.compile keys path d join target).run.run w = (.ok condition, w') ∧
      condition.Normal ∧ c.OnlyBindsSortKeys condition := by
  obtain ⟨condition, w', hrun, h⟩ := compile_run hc path d join target w
  exact ⟨condition, w', hrun, h.normal, h.onlyBindsSortKeys⟩

-- One alternative names a category twice, one is dropped, and one is sorted within another.
theorem compile_normal_rivers :
    let catalog := (({} : Catalog).addCategory ⟨"Rivers", 14⟩ 3).addProperty "Flows into" .page
    let c : Compiler := { catalog }
    let keys := SortKeys.ofRequests [{ key := "Flows into" }, { key := "" }]
    let d : Description := .conjunction [.inNamespace 0, .disjunction
      [.inCategory [⟨"Rivers", 14⟩, ⟨"Rivers", 14⟩], .inCategory [⟨"Lakes", 14⟩],
        .someProperty { key := "Flows into" } .thing]]
    c.Standard ∧ ∃ condition w',
      (c.compile keys [⟨"Water", 108⟩] d ⟨"result"⟩ (some .mainSubject)).run.run {} =
        (.ok condition, w') ∧ condition.Normal ∧ c.OnlyBindsSortKeys condition := by
  intro _ c keys d
  have hc : c.Standard := standard_of_builders rfl
  exact ⟨hc, compile_normal c hc keys [⟨"Water", 108⟩] d ⟨"result"⟩ (some .mainSubject) {}⟩

end Compiler

end WikiQuery
