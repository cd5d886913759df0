import WikiQuery.Proofs.Compile.Erasure

namespace WikiQuery

-- What goes along with a condition, less what is there for the sake of sorts.
def Attachments.unsorted {γ : Type} (a : Attachments γ) : Attachments γ :=
  { a with weak := [], sortVariables := ∅ }

def Erasure.sorts : Erasure where
  clause := id
  attachments := Attachments.unsorted
  clause_filter _ := rfl
  clause_union groups := by simp
  attachments_empty := rfl
  attachments_merge _ _ := rfl
  attachments_safe _ _ := rfl
  attachments_declare _ _ := rfl

-- A condition less its sorts, in all its branches.
def Condition.unsorted (c : Condition) : Condition := c.erase .sorts

namespace Compiler

variable {c : Compiler} {keys : SortKeys} {join : Variable} {target : Option SortTarget}

theorem attachments_attachSort (c : Compiler) (keys : SortKeys) (join : Variable)
    (target : Option SortTarget) (datatype : Datatype) (condition : Condition) :
    (c.attachSort keys join target datatype condition).attachments.unsorted =
      condition.attachments.unsorted := by
  unfold attachSort
  cases target with
  | none => rfl
  | some target =>
    dsimp only
    split_ifs <;> rfl

theorem unsorted_attachSort {datatype : Datatype} {condition : Condition} :
    (c.attachSort keys join target datatype condition).unsorted = condition.unsorted := by
  unfold Condition.unsorted
  rw [Condition.erase_eq, Condition.erase_eq, form_attachSort]
  exact congrArg (Condition.mk _) (attachments_attachSort ..)

-- To ask for no sorts leaves out the sorts, and all else stays.
theorem sorts_commutes (c : Compiler) (keys : SortKeys) :
    Erasure.sorts.Commutes c c keys ∅ id where
  catalog := rfl
  fields := rfl
  attachSort _ _ _ _ := attachSort_empty.trans unsorted_attachSort.symm
  inNamespace _ _ := rfl
  inCategory hclose := ⟨_, hclose, fun _ => rfl⟩
  opening hopen := hopen
  rollback _ _ := rfl

-- The rules leave no choice.
theorem Compiles.unique (hc : c.Standard) {path : List Page} {d : Description}
    {s s₁ s₂ : Progress} {condition condition' : Condition}
    (h : Compiles c keys path d join target s condition s₁)
    (h' : Compiles c keys path d join target s condition' s₂) :
    condition = condition' ∧ s₁ = s₂ := by
  let w : Work := { counter := s.counter, subqueries := s.subqueries }
  obtain ⟨w₁, hrun, rfl⟩ := h.runs hc w rfl
  obtain ⟨w₂, hrun', rfl⟩ := h'.runs hc w rfl
  rw [hrun] at hrun'
  cases hrun'
  exact ⟨rfl, rfl⟩

-- What is compiled with sorts is, less its sorts, what is compiled without any, and takes the same
-- numbers and closures.
theorem Compiles.unsorted {path : List Page} {d : Description} {s s' : Progress}
    {condition : Condition} (h : Compiles c keys path d join target s condition s')
    (target' : Option SortTarget) :
    Compiles c ∅ path d join target' s condition.unsorted s' :=
  h.erase (c.sorts_commutes keys) (.inr rfl)

end Compiler

-- Two queries that differ in the requested sorts only are the same less their sorts: conditions,
-- closures and the numbers of fresh variables.
theorem Session.query_unsorted (s : Session) (hc : s.compiler.Standard) (d : Description)
    (sorts sorts' : List RequestedSort) :
    ∃ q q' s₁ s₂, s.query d sorts = (.ok q, s₁) ∧ s.query d sorts' = (.ok q', s₂) ∧
      q.subqueries = q'.subqueries ∧ q.result = q'.result ∧
      q.condition.unsorted = q'.condition.unsorted ∧
      q.condition.attachments.vocabularies = q'.condition.attachments.vocabularies ∧
      q.condition.safe = q'.condition.safe ∧ s₁.work.counter = s₂.work.counter := by
  -- both are compiled without sorts to one and the same condition
  have hplain : ∀ sorts, ∃ q s', s.query d sorts = (.ok q, s') ∧
      s.compiler.Compiles ∅ [] d ⟨s.compiler.settings.result⟩ none {} q.condition.unsorted
        ⟨s'.work.counter, q.subqueries⟩ ∧ q.result = ⟨s.compiler.settings.result⟩ := by
    intro sorts
    obtain ⟨condition, p, h⟩ := Compiler.exists_compiles s.compiler (SortKeys.ofRequests sorts) [] d
      ⟨s.compiler.settings.result⟩ (SortKeys.rootTarget (SortKeys.ofRequests sorts)) {}
    obtain ⟨s', hquery, -, hcounter⟩ := h.query hc
    refine ⟨_, s', hquery, ?_, rfl⟩
    rw [hcounter]
    exact h.unsorted none
  obtain ⟨q, s₁, hq, hcompiles, hresult⟩ := hplain sorts
  obtain ⟨q', s₂, hq', hcompiles', hresult'⟩ := hplain sorts'
  obtain ⟨hcondition, hprogress⟩ := hcompiles.unique hc hcompiles'
  have hattachments := congrArg Condition.attachments hcondition
  unfold Condition.unsorted at hattachments
  rw [Condition.attachments_erase, Condition.attachments_erase] at hattachments
  have hvocabularies := congrArg Attachments.vocabularies hattachments
  have hsafe := congrArg Attachments.safe hattachments
  exact ⟨q, q', s₁, s₂, hq, hq', congrArg Progress.subqueries hprogress,
    hresult.trans hresult'.symm, hcondition, hvocabularies, hsafe,
    congrArg Progress.counter hprogress⟩

-- Sorted by ages and by themselves, the results have sort keys in both alternatives, at two depths.
theorem Session.query_unsorted_parents :
    let catalog := (({} : Catalog).addProperty "Has parent" .page).addProperty "Age" .number
    let s : Session := { compiler := { catalog } }
    let d : Description := .disjunction
      [.someProperty { key := "Has parent" } (.someProperty { key := "Age" } .thing),
        .inNamespace 0]
    s.compiler.Standard ∧
      ∃ q q' s₁ s₂, s.query d [{ key := "Age" }, { key := "", direction := .desc }] = (.ok q, s₁) ∧
        s.query d [] = (.ok q', s₂) ∧ q.subqueries = q'.subqueries ∧ q.result = q'.result ∧
        q.condition.unsorted = q'.condition.unsorted ∧
        q.condition.attachments.vocabularies = q'.condition.attachments.vocabularies ∧
        q.condition.safe = q'.condition.safe ∧ s₁.work.counter = s₂.work.counter := by
  intro _ s d
  have hc : s.compiler.Standard := Compiler.standard_of_builders rfl
  exact ⟨hc, query_unsorted s hc d [{ key := "Age" }, { key := "", direction := .desc }] []⟩

end WikiQuery
