import WikiQuery.Proofs.Compile.Adequacy

namespace WikiQuery

-- A description in which no concept is mentioned.
def Description.ConceptFree : Description → Prop
  | .concept _ => False
  | .someProperty _ inner => ConceptFree inner
  | .conjunction parts => ∀ part ∈ parts, ConceptFree part
  | .disjunction parts => ∀ part ∈ parts, ConceptFree part
  | _ => True

namespace Catalog

-- Puts definitions in the place of concepts, also within definitions. A concept without a
-- definition, or within its own one, leaves nothing to choose from.
def expand (c : Catalog) (path : List Page) (d : Description) : Description :=
  match d with
  | .concept page =>
    match _h : c.enter? path page with
    | none => .disjunction []
    | some definition => expand c (page :: path) definition
  | .someProperty p inner => .someProperty p (expand c path inner)
  | .conjunction parts => .conjunction (parts.map fun part => expand c path part)
  | .disjunction parts => .disjunction (parts.map fun part => expand c path part)
  | .thing => .thing
  | .inNamespace number => .inNamespace number
  | .inCategory categories => .inCategory categories
  | .value p comparator x => .value p comparator x
termination_by (c.remaining path, sizeOf d)
decreasing_by
  · exact Prod.Lex.left _ _ (remaining_enter_lt _h)
  all_goals decreasing_tactic

variable {c : Catalog} {path : List Page}

theorem expand_noConcept {page : Page} (h : c.enter? path page = none) :
    c.expand path (.concept page) = .disjunction [] := by
  rw [expand]
  split
  · rfl
  · simp_all

theorem expand_concept {page : Page} {definition : Description}
    (h : c.enter? path page = some definition) :
    c.expand path (.concept page) = c.expand (page :: path) definition := by
  rw [expand]
  split
  · simp_all
  · simp_all

theorem expand_conjunction (parts : List Description) :
    c.expand path (.conjunction parts) = .conjunction (parts.map (c.expand path)) := by
  rw [expand]

theorem expand_disjunction (parts : List Description) :
    c.expand path (.disjunction parts) = .disjunction (parts.map (c.expand path)) := by
  rw [expand]

theorem conceptFree_expand (c : Catalog) (path : List Page) (d : Description) :
    (c.expand path d).ConceptFree := by
  induction path, d using expansion_induction c with
  | thing path => simp [expand, Description.ConceptFree]
  | inNamespace path number => simp [expand, Description.ConceptFree]
  | inCategory path categories => simp [expand, Description.ConceptFree]
  | concept path page ih =>
    cases h : c.enter? path page with
    | none => simp [expand_noConcept h, Description.ConceptFree]
    | some definition =>
      rw [expand_concept h]
      exact ih definition h
  | value path p comparator x => simp [expand, Description.ConceptFree]
  | someProperty path p inner ih =>
    rw [expand, Description.ConceptFree]
    exact ih
  | conjunction path parts ih =>
    rw [expand_conjunction, Description.ConceptFree]
    simpa using ih
  | disjunction path parts ih =>
    rw [expand_disjunction, Description.ConceptFree]
    simpa using ih

end Catalog

namespace Compiler

variable {c : Compiler} {keys : SortKeys}

theorem attachRequested_nothing (join : Variable) (target : Option SortTarget) :
    c.attachRequested keys join target .nothing = .nothing := by
  unfold attachRequested attachSort
  cases target <;> rfl

theorem compiles_noAlternatives (path : List Page) (join : Variable) (target : Option SortTarget)
    (s : Progress) : Compiles c keys path (.disjunction []) join target s .nothing s := by
  have h : Compiles c keys path (.disjunction []) join target s
      (c.attachRequested keys join target (alternativesCondition [])) s :=
    .disjunction (fun _ _ _ _ h => h) .nil (by simp)
  rw [alternativesCondition, attachRequested_nothing] at h
  exact h

-- Compiling goes by the definitions that stand for concepts and never by the concepts, so what
-- takes their place is compiled the same way, on any path.
theorem Compiles.expand {path path' : List Page} {d : Description} {join : Variable}
    {target : Option SortTarget} {s s' : Progress} {condition : Condition}
    (h : Compiles c keys path d join target s condition s') :
    Compiles c keys path' (c.catalog.expand path d) join target s condition s' := by
  induction h with
  | thing =>
    rw [Catalog.expand]
    exact .thing
  | inNamespace number =>
    rw [Catalog.expand]
    exact .inNamespace number
  | noCategory hnone =>
    rw [Catalog.expand]
    exact .noCategory hnone
  | inCategory hsome hclose =>
    rw [Catalog.expand]
    exact .inCategory hsome hclose
  | noConcept hnone =>
    rw [Catalog.expand_noConcept hnone]
    exact compiles_noAlternatives ..
  | concept hsome _ ih =>
    rw [Catalog.expand_concept hsome]
    exact ih
  | value p comparator x =>
    rw [Catalog.expand]
    exact .value p comparator x
  | noProperty hnone =>
    rw [Catalog.expand]
    exact .noProperty hnone
  | someProperty hp hopen _ hgroup ih =>
    rw [Catalog.expand]
    exact .someProperty hp hopen ih hgroup
  | emptyProperty hp hopen _ hnone ih =>
    rw [Catalog.expand]
    exact .emptyProperty hp hopen ih hnone
  | conjunctionNone =>
    rw [Catalog.expand_conjunction]
    exact .conjunctionNone
  | conjunctionOne _ ih =>
    rw [Catalog.expand_conjunction]
    exact .conjunctionOne ih
  | conjunction hlen _ chain hmerge ih =>
    rw [Catalog.expand_conjunction]
    exact .conjunction (by simpa using hlen) (fun _ _ _ _ h => h) (chain.map ih) hmerge
  | clash hlen _ chain hmerge _ hclash ih ihpart =>
    rw [Catalog.expand_conjunction, List.map_append, List.map_cons]
    exact .clash (by simpa using hlen) (fun _ _ _ _ h => h) (chain.map ih) hmerge ihpart hclash
  | disjunction _ chain hconditions ih =>
    rw [Catalog.expand_disjunction]
    exact .disjunction (fun _ _ _ _ h => h) (chain.map ih) hconditions
  | saturation _ chain hconditions _ heverything ih ihpart =>
    rw [Catalog.expand_disjunction, List.map_append, List.map_cons]
    exact .saturation (fun _ _ _ _ h => h) (chain.map ih) hconditions ihpart heverything

end Compiler

-- A query with concepts is the query with their definitions in their place: the same condition with
-- all that goes along with it, the same closures and sort keys, and as many variables.
theorem Session.query_expand (s : Session) (hc : s.compiler.Standard) (d : Description)
    (sorts : List RequestedSort) :
    (s.compiler.catalog.expand [] d).ConceptFree ∧
    ∃ q s₁ s₂, s.query d sorts = (.ok q, s₁) ∧
      s.query (s.compiler.catalog.expand [] d) sorts = (.ok q, s₂) ∧
      s₁.work.counter = s₂.work.counter := by
  refine ⟨Catalog.conceptFree_expand _ _ d, ?_⟩
  obtain ⟨condition, p, h⟩ := Compiler.exists_compiles s.compiler (SortKeys.ofRequests sorts) [] d
    ⟨s.compiler.settings.result⟩ (SortKeys.rootTarget (SortKeys.ofRequests sorts)) {}
  obtain ⟨s₁, hquery₁, -, hcounter₁⟩ := h.query hc
  obtain ⟨s₂, hquery₂, -, hcounter₂⟩ := h.expand.query hc
  exact ⟨_, s₁, s₂, hquery₁, hquery₂, hcounter₁.trans hcounter₂.symm⟩

-- One concept uses another one twice, and that one is defined by the first.
theorem Session.query_expand_circular :
    let coast : Page := ⟨"Coast", 108⟩
    let island : Page := ⟨"Island", 108⟩
    let catalog := (({} : Catalog).addConcept coast (.conjunction
      [.concept island, .concept island])).addConcept island
        (.disjunction [.concept coast, .inNamespace 0])
    let s : Session := { compiler := { catalog } }
    let alternatives : Description := .disjunction [.disjunction [], .inNamespace 0]
    let expanded : Description := .conjunction [alternatives, alternatives]
    s.compiler.Standard ∧ expanded.ConceptFree ∧
      ∃ q s₁ s₂, s.query (.concept coast) [] = (.ok q, s₁) ∧
        s.query expanded [] = (.ok q, s₂) ∧ s₁.work.counter = s₂.work.counter := by
  intro coast island catalog s alternatives expanded
  have hc : s.compiler.Standard := Compiler.standard_of_builders rfl
  have hcoast : catalog.enter? [] coast =
      some (.conjunction [.concept island, .concept island]) := rfl
  have hisland : catalog.enter? [coast] island =
      some (.disjunction [.concept coast, .inNamespace 0]) := rfl
  have hagain : catalog.enter? [island, coast] coast = none := rfl
  have hexpand : s.compiler.catalog.expand [] (.concept coast) = expanded := by
    change catalog.expand [] (.concept coast) = expanded
    rw [Catalog.expand_concept hcoast, Catalog.expand_conjunction, List.map_cons, List.map_cons,
      List.map_nil, Catalog.expand_concept hisland, Catalog.expand_disjunction, List.map_cons,
      List.map_cons, List.map_nil, Catalog.expand_noConcept hagain, Catalog.expand]
  have h := query_expand s hc (.concept coast) []
  rw [hexpand] at h
  exact ⟨hc, h⟩

end WikiQuery
