import WikiQuery.Proofs.Compile.Unsorted

namespace WikiQuery

theorem Chain.forall_of_mem {σ α β : Type} {R : α → σ → β → σ → Prop} {P : β → Prop}
    {as : List α} {bs : List β} {s s' : σ} (h : ∀ a ∈ as, ∀ s b s', R a s b s' → P b)
    (chain : Chain R as s bs s') : ∀ b ∈ bs, P b := by
  induction chain with
  | nil => simp
  | cons first _ ih =>
    have hrest := ih fun a ha => h a (List.mem_cons_of_mem _ ha)
    exact List.forall_mem_cons.mpr ⟨h _ (by simp) _ _ _ first, hrest⟩

namespace Condition

-- A condition together with its branches, at any depth.
def choices : Condition → List Condition
  | ⟨.alternatives branches, a⟩ => ⟨.alternatives branches, a⟩ :: branches.flatMap choices
  | ⟨form, a⟩ => [⟨form, a⟩]

theorem choices_eq (c : Condition) : c.choices = c :: c.form.branches.flatMap choices := by
  obtain ⟨form, a⟩ := c
  cases form <;> simp [choices, Form.branches]

theorem forall_choices {P : Condition → Prop} {c : Condition} :
    (∀ b ∈ c.choices, P b) ↔ P c ∧ ∀ b ∈ c.form.branches, ∀ d ∈ b.choices, P d := by
  rw [choices_eq, List.forall_mem_cons, List.forall_mem_flatMap]

end Condition

-- What holds of a description holds of its parts and of the definitions of its concepts.
structure Catalog.Hereditary (c : Catalog) (D : Description → Prop) : Prop where
  concept : ∀ {page definition}, c.concept? page = some definition → D (.concept page) →
    D definition
  someProperty : ∀ {p inner}, D (.someProperty p inner) → D inner
  conjunction : ∀ {parts}, D (.conjunction parts) → ∀ part ∈ parts, D part
  disjunction : ∀ {parts}, D (.disjunction parts) → ∀ part ∈ parts, D part

namespace Compiler

variable {c : Compiler} {keys : SortKeys} {D : Description → Prop} {P : Condition → Prop}

-- A property of conditions that is of no concern to sorts and is kept by all other steps that make
-- conditions out of descriptions of a kind.
structure Invariant (c : Compiler) (keys : SortKeys) (D : Description → Prop)
    (P : Condition → Prop) : Prop where
  sorts : ∀ {b b' : Condition}, b'.form = b.form →
    b'.attachments.vocabularies = b.attachments.vocabularies → b'.safe = b.safe → P b → P b'
  nothing : P .nothing
  everything : P .everything
  inNamespace : ∀ join number, P (c.namespaceCondition keys join none number)
  inCategory : ∀ join ids closure, P (c.categoryCondition keys join none ids closure)
  value : ∀ {p comparator x}, D (.value p comparator x) → ∀ join,
    P (c.comparedCondition keys join none p comparator x)
  someProperty : ∀ {join p info s clause v s₁ inner b group}, D (.someProperty p inner) →
    c.opening join p info s = ((clause, v), s₁) → b.toPattern? v = some group → P b →
    P (c.propertyCondition keys join none p clause b group)
  merge : ∀ {join conditions m}, (∀ b ∈ conditions, P b) → Merge.all? join conditions = some m →
    P m.finish
  alternatives : ∀ {branches}, (∀ b ∈ branches, P b) →
    P ⟨.alternatives branches, branches.foldl (fun a b => a.merge b.attachments) {}⟩

namespace Invariant

theorem attachSort (hP : c.Invariant keys D P) {join : Variable} {target : Option SortTarget}
    {datatype : Datatype} {condition : Condition} (h : ∀ b ∈ condition.choices, P b) :
    ∀ b ∈ (c.attachSort keys join target datatype condition).choices, P b := by
  have ha := c.attachments_attachSort keys join target datatype condition
  have hvocabularies := congrArg Attachments.vocabularies ha
  have hsafe := congrArg Attachments.safe ha
  rw [Condition.forall_choices] at h ⊢
  rw [form_attachSort]
  exact ⟨hP.sorts (form_attachSort ..) hvocabularies hsafe h.1, h.2⟩

theorem attachSort_leaf (hP : c.Invariant keys D P) {join : Variable} {target : Option SortTarget}
    {datatype : Datatype} {condition : Condition} (hform : condition.form.branches = [])
    (h : P condition) :
    ∀ b ∈ (c.attachSort keys join target datatype condition).choices, P b := by
  apply hP.attachSort
  rw [Condition.forall_choices, hform]
  exact ⟨h, by simp⟩

theorem nothing_choices (hP : c.Invariant keys D P) : ∀ b ∈ Condition.nothing.choices, P b := by
  refine Condition.forall_choices.mpr ⟨hP.nothing, ?_⟩
  intro b hb
  cases hb

theorem alternativesCondition (hP : c.Invariant keys D P) {branches : List Condition}
    (h : ∀ b ∈ branches, ∀ d ∈ b.choices, P d) :
    ∀ b ∈ (alternativesCondition branches).choices, P b := by
  rcases branches with _ | ⟨first, _ | ⟨second, rest⟩⟩
  · exact hP.nothing_choices
  · exact h first (by simp)
  · refine Condition.forall_choices.mpr ⟨?_, h⟩
    exact hP.alternatives fun b hb => (Condition.forall_choices.mp (h b hb)).1

end Invariant

-- An invariant holds of all that is compiled, in every branch.
theorem Compiles.keeps (hP : c.Invariant keys D P) (hD : c.catalog.Hereditary D)
    {path : List Page} {d : Description} {join : Variable} {target : Option SortTarget}
    {s s' : Progress} {condition : Condition}
    (h : Compiles c keys path d join target s condition s') (hd : D d) :
    ∀ b ∈ condition.choices, P b := by
  have hnothing := hP.nothing_choices
  have heverything : ∀ {join target}, ∀ b ∈ (c.everything keys join target).choices, P b :=
    hP.attachSort_leaf rfl hP.everything
  induction h with
  | thing => exact heverything
  | inNamespace number => exact hP.attachSort_leaf rfl (hP.inNamespace _ number)
  | noCategory _ => exact hnothing
  | inCategory _ _ => exact hP.attachSort_leaf rfl (hP.inCategory ..)
  | noConcept _ => exact hnothing
  | concept hsome _ ih => exact ih (hD.concept (Catalog.enter?_eq_some.mp hsome).2 hd)
  | @value _ join _ _ p comparator x =>
    have hform : (c.comparedCondition keys join none p comparator x).form.branches = [] := by
      rcases c.form_comparedCondition keys join none p comparator x with h | ⟨r, h⟩ | ⟨t, h, -⟩ <;>
        rw [h] <;> rfl
    exact hP.attachSort_leaf hform (hP.value hd join)
  | noProperty _ => exact hnothing
  | @someProperty _ join _ _ _ _ p _ _ clause v inner group _ hopen _ hgroup ih =>
    have hinner := (Condition.forall_choices.mp (ih (hD.someProperty hd))).1
    have hform : (c.propertyCondition keys join none p clause inner group).form.branches = [] := by
      rw [form_propertyCondition]
      rfl
    exact hP.attachSort_leaf hform (hP.someProperty hd hopen hgroup hinner)
  | emptyProperty => exact hnothing
  | conjunctionNone => exact heverything
  | conjunctionOne _ ih => exact ih (hD.conjunction hd _ (by simp))
  | @conjunction _ _ _ _ _ _ _ m _ _ _ chain hmerge ih =>
    have hparts := chain.forall_of_mem fun part hpart s b s' hR =>
      ih part s b s' hR (hD.conjunction hd part hpart)
    apply hP.attachSort_leaf m.finish_cases.2
    exact hP.merge (fun b hb => (Condition.forall_choices.mp (hparts b hb)).1) hmerge
  | clash => exact hnothing
  | disjunction _ chain _ ih =>
    have hparts := chain.forall_of_mem fun part hpart s b s' hR =>
      ih part s b s' hR (hD.disjunction hd part hpart)
    apply hP.attachSort
    apply hP.alternativesCondition
    intro b hb
    exact hparts b (List.mem_filter.mp hb).1
  | saturation => exact heverything

end Compiler

end WikiQuery
