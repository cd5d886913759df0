import WikiQuery.Proofs.Condition.Atoms

namespace WikiQuery

namespace Catalog

-- The definition of a concept, unless the concept is on the path already.
def enter? (c : Catalog) (path : List Page) (concept : Page) : Option Description :=
  if concept ∈ path then none else c.concept? concept

-- The numbers of the categories that the wiki knows, each once, as they are mentioned first.
def known (c : Catalog) (categories : List Page) : List Nat :=
  (categories.filterMap c.category?).eraseDups

theorem enter?_eq_some {c : Catalog} {path : List Page} {concept : Page}
    {definition : Description} :
    c.enter? path concept = some definition ↔
      concept ∉ path ∧ c.concept? concept = some definition := by
  unfold enter?
  by_cases h : concept ∈ path <;> simp [h]

theorem enter?_eq_none {c : Catalog} {path : List Page} {concept : Page} :
    c.enter? path concept = none ↔ concept ∈ path ∨ c.concept? concept = none := by
  unfold enter?
  by_cases h : concept ∈ path <;> simp [h]

theorem remaining_enter_lt {c : Catalog} {path : List Page} {concept : Page}
    {definition : Description} (h : c.enter? path concept = some definition) :
    c.remaining (concept :: path) < c.remaining path := by
  obtain ⟨hp, hd⟩ := enter?_eq_some.mp h
  exact remaining_lt hd hp

-- Descriptions within definitions of concepts are reached through the concepts that are entered.
-- Every concept entered is one that was left, so this reaches an end on circular definitions too.
theorem expansion_induction (c : Catalog) {P : List Page → Description → Prop}
    (thing : ∀ path, P path .thing)
    (inNamespace : ∀ path number, P path (.inNamespace number))
    (inCategory : ∀ path categories, P path (.inCategory categories))
    (concept : ∀ path page,
      (∀ definition, c.enter? path page = some definition → P (page :: path) definition) →
      P path (.concept page))
    (value : ∀ path p comparator x, P path (.value p comparator x))
    (someProperty : ∀ path p inner, P path inner → P path (.someProperty p inner))
    (conjunction : ∀ path parts, (∀ part ∈ parts, P path part) → P path (.conjunction parts))
    (disjunction : ∀ path parts, (∀ part ∈ parts, P path part) → P path (.disjunction parts))
    (path : List Page) (d : Description) : P path d := by
  induction hn : c.remaining path using Nat.strongRecOn generalizing path d with
  | ind n deeper =>
    subst hn
    induction hm : sizeOf d using Nat.strongRecOn generalizing d with
    | ind m smaller =>
      subst hm
      have hparts : ∀ parts : List Description, sizeOf parts < sizeOf d →
          ∀ part ∈ parts, P path part := by
        intro parts hlt part hpart
        have := List.sizeOf_lt_of_mem hpart
        exact smaller _ (by omega) part rfl
      cases d with
      | thing => exact thing path
      | inNamespace number => exact inNamespace path number
      | inCategory categories => exact inCategory path categories
      | concept page =>
        apply concept path page
        intro definition h
        exact deeper _ (remaining_enter_lt h) _ definition rfl
      | value p comparator x => exact value path p comparator x
      | someProperty p inner =>
        have hlt : sizeOf inner < sizeOf (Description.someProperty p inner) := by
          simp only [Description.someProperty.sizeOf_spec]
          omega
        exact someProperty path p inner (smaller _ hlt inner rfl)
      | conjunction parts => exact conjunction path parts (hparts parts (by simp))
      | disjunction parts => exact disjunction path parts (hparts parts (by simp))

end Catalog

-- What the result of a compilation depends on and what it leaves behind: the work without what was
-- reported.
structure Progress where
  counter : Nat := 0
  subqueries : SubqueryTable := {}

namespace Progress

-- Registers a closure, unless it has no depth.
def close (s : Progress) (depth : UInt32) (q : Subquery) : Option SubqueryId × Progress :=
  if depth = 0 then (none, s)
  else (some (s.subqueries.register q).1, { s with subqueries := (s.subqueries.register q).2 })

-- Forgets the sub-queries behind the first ones.
def rollback (s : Progress) (size : Nat) : Progress :=
  { s with subqueries := s.subqueries.truncate size }

end Progress

def Work.progress (w : Work) : Progress := ⟨w.counter, w.subqueries⟩

-- Steps on the elements of a list one after the other, each from where the one before it ended.
inductive Chain {σ α β : Type} (R : α → σ → β → σ → Prop) : List α → σ → List β → σ → Prop where
  | nil {s : σ} : Chain R [] s [] s
  | cons {a : α} {as : List α} {b : β} {bs : List β} {s s₁ s₂ : σ} :
    R a s b s₁ → Chain R as s₁ bs s₂ → Chain R (a :: as) s (b :: bs) s₂

theorem Chain.project {σ τ α β γ : Type} {R : α → σ → β → σ → Prop} {S : α → τ → γ → τ → Prop}
    {f : β → γ} {g : σ → τ} {as : List α} {bs : List β} {s s' : σ}
    (h : ∀ a s b s', R a s b s' → S a (g s) (f b) (g s')) (chain : Chain R as s bs s') :
    Chain S as (g s) (bs.map f) (g s') := by
  induction chain with
  | nil => exact .nil
  | cons first _ ih => exact .cons (h _ _ _ _ first) ih

theorem Chain.map {σ α α' β : Type} {R : α → σ → β → σ → Prop} {S : α' → σ → β → σ → Prop}
    {f : α → α'} {as : List α} {bs : List β} {s s' : σ}
    (h : ∀ a s b s', R a s b s' → S (f a) s b s') (chain : Chain R as s bs s') :
    Chain S (as.map f) s bs s' := by
  induction chain with
  | nil => exact .nil
  | cons first _ ih => exact .cons (h _ _ _ _ first) ih

theorem Chain.imp {σ α β : Type} {R S : α → σ → β → σ → Prop} {as : List α} {bs : List β}
    {s s' : σ} (h : ∀ a s b s', R a s b s' → S a s b s') (chain : Chain R as s bs s') :
    Chain S as s bs s' := by
  simpa using chain.map (f := id) h

theorem Chain.forall_result {σ α β : Type} {R : α → σ → β → σ → Prop} {P : β → Prop} {as : List α}
    {bs : List β} {s s' : σ} (h : ∀ a s b s', R a s b s' → P b) (chain : Chain R as s bs s') :
    ∀ b ∈ bs, P b := by
  induction chain with
  | nil => simp
  | cons first _ ih => exact List.forall_mem_cons.mpr ⟨h _ _ _ _ first, ih⟩

theorem Chain.map_result {σ α β γ : Type} {R : α → σ → β → σ → Prop} {f : β → γ} {g : α → γ}
    {as : List α} {bs : List β} {s s' : σ} (h : ∀ a s b s', R a s b s' → f b = g a)
    (chain : Chain R as s bs s') : bs.map f = as.map g := by
  induction chain with
  | nil => rfl
  | cons first _ ih => rw [List.map_cons, List.map_cons, h _ _ _ _ first, ih]

theorem Chain.forall_iff {σ α β : Type} {R : α → σ → β → σ → Prop} {P : β → Prop} {Q : α → Prop}
    {as : List α} {bs : List β} {s s' : σ} (h : ∀ a s b s', R a s b s' → (P b ↔ Q a))
    (chain : Chain R as s bs s') : (∀ b ∈ bs, P b) ↔ ∀ a ∈ as, Q a := by
  induction chain with
  | nil => simp
  | cons first _ ih => rw [List.forall_mem_cons, List.forall_mem_cons, h _ _ _ _ first, ih]

theorem Chain.append {σ α β : Type} {R : α → σ → β → σ → Prop} {as as' : List α} {bs bs' : List β}
    {s s₁ s₂ : σ} (h₁ : Chain R as s bs s₁) (h₂ : Chain R as' s₁ bs' s₂) :
    Chain R (as ++ as') s (bs ++ bs') s₂ := by
  induction h₁ with
  | nil => exact h₂
  | cons first _ ih => exact .cons first (ih h₂)

theorem Chain.exists_of_concat {σ α β : Type} {R : α → σ → β → σ → Prop} {as : List α} {a : α}
    {bs : List β} {s s' : σ} (chain : Chain R (as ++ [a]) s bs s') :
    ∃ before b s₁, bs = before ++ [b] ∧ Chain R as s before s₁ ∧ R a s₁ b s' := by
  induction as generalizing bs s with
  | nil =>
    cases chain with
    | cons first rest =>
      cases rest
      exact ⟨[], _, _, rfl, .nil, first⟩
  | cons a as ih =>
    cases chain with
    | cons first rest =>
      obtain ⟨before, b, s₁, rfl, hbefore, hlast⟩ := ih rest
      exact ⟨_ :: before, b, s₁, rfl, .cons first hbefore, hlast⟩

-- Where every element has a step, the steps lead to the end, or up to one whose result the results
-- before it do not go together with.
theorem Chain.run_until {σ α β μ : Type} {R : α → σ → β → σ → Prop} (collect : μ → β → Option μ)
    {as : List α} (total : ∀ a ∈ as, ∀ s, ∃ b s', R a s b s') (m : μ) (s : σ) :
    (∃ bs s' m', Chain R as s bs s' ∧ bs.foldlM collect m = some m') ∨
    (∃ done a rest bs s₁ m' b s', as = done ++ a :: rest ∧ Chain R done s bs s₁ ∧
      bs.foldlM collect m = some m' ∧ R a s₁ b s' ∧ collect m' b = none) := by
  induction as generalizing m s with
  | nil => exact .inl ⟨[], s, m, .nil, rfl⟩
  | cons a as ih =>
    obtain ⟨b, s₁, hstep⟩ := total a (by simp) s
    cases hcollect : collect m b with
    | none => exact .inr ⟨[], a, as, [], s, m, b, s₁, rfl, .nil, rfl, hstep, hcollect⟩
    | some m₁ =>
      have hfold : ∀ bs : List β, (b :: bs).foldlM collect m = bs.foldlM collect m₁ := by
        intro bs
        simp [hcollect]
      rcases ih (fun a ha => total a (List.mem_cons_of_mem _ ha)) m₁ s₁ with
        ⟨bs, s', m', chain, hm⟩ | ⟨done, a', rest, bs, s₂, m', b', s', rfl, chain, hm, hlast⟩
      · exact .inl ⟨b :: bs, s', m', .cons hstep chain, (hfold bs).trans hm⟩
      · exact .inr ⟨a :: done, a', rest, b :: bs, s₂, m', b', s', rfl, .cons hstep chain,
          (hfold bs).trans hm, hlast⟩

namespace Compiler

-- The fresh variable with a number.
def numbered (c : Compiler) (n : Nat) : Variable := ⟨c.settings.stem ++ Text.decimal n⟩

-- The clause that a value of a property makes between an entity and the entity of the value.
def link (join : Variable) (p : Property) (v : Variable) (closure : Option SubqueryId) : Clause :=
  if p.inverse then .triple (.entity v) p (.entity join) closure
  else .triple (.entity join) p (.entity v) closure

-- The clause with which a property begins, and the variable that its inner description is about.
def opening (c : Compiler) (join : Variable) (p : Property) (info : PropertyInfo) (s : Progress) :
    (Clause × Variable) × Progress :=
  let depth := c.settings.propertyDepth
  let (closure, s) := s.close depth (.property p info.id depth)
  if info.datatype.isPage then
    let v := c.numbered (s.counter + 1)
    ((link join p v closure, v), { s with counter := s.counter + 1 })
  else ((.hasValue join p closure, join), s)

-- The condition for members of categories, given by their numbers.
def categoryCondition (c : Compiler) (keys : SortKeys) (join : Variable)
    (target : Option SortTarget) (ids : List Nat) (closure : Option SubqueryId) : Condition :=
  c.attachSort keys join target .page
    ((Condition.ofPattern [.inCategory join ids closure]).withSafe true)

-- The condition for a comparison with a value. A comparator without effect asks for nothing.
def comparedCondition (c : Compiler) (keys : SortKeys) (join : Variable)
    (target : Option SortTarget) (p : Property) (comparator : Comparator) (value : Value) :
    Condition :=
  c.attachSort keys join target value.datatype
    (match c.valueCondition? join p comparator value with
      | some condition => declareValue value condition
      | none => .everything)

-- Each kind of description is built by the rule for that kind.
def Standard (c : Compiler) : Prop :=
  ∀ kind, ∃ b, c.builderFor? kind = some b ∧ b.recipe = .standard kind

theorem standard_of_builders {c : Compiler} (h : c.builders = Builder.standards) : c.Standard := by
  intro kind
  refine ⟨Builder.standard kind, ?_, rfl⟩
  unfold builderFor?
  rw [h]
  cases kind <;> rfl

-- The rules by which descriptions compile: on a path of concepts, a description on a variable and
-- with a sort target turns a progress into a condition and the progress behind it.
-- The parts of a conjunction or a disjunction are compiled along a chain. Its steps are those of
-- any relation that the rules contain, so that an induction on a derivation reaches into the chain.
inductive Compiles (c : Compiler) (keys : SortKeys) :
    List Page → Description → Variable → Option SortTarget → Progress → Condition → Progress →
      Prop where
  | thing {path join target s} :
    Compiles c keys path .thing join target s (c.everything keys join target) s
  | inNamespace {path join target s} (number : Int32) :
    Compiles c keys path (.inNamespace number) join target s
      (c.namespaceCondition keys join target number) s
  | noCategory {path join target s categories} :
    c.catalog.known categories = [] →
    Compiles c keys path (.inCategory categories) join target s .nothing s
  | inCategory {path join target s s' categories closure} :
    c.catalog.known categories ≠ [] →
    s.close c.settings.categoryDepth
      (.categories (c.catalog.known categories) c.settings.categoryDepth) = (closure, s') →
    Compiles c keys path (.inCategory categories) join target s
      (c.categoryCondition keys join target (c.catalog.known categories) closure) s'
  | noConcept {path join target s page} :
    c.catalog.enter? path page = none →
    Compiles c keys path (.concept page) join target s .nothing s
  | concept {path join target s s' page definition condition} :
    c.catalog.enter? path page = some definition →
    Compiles c keys (page :: path) definition join target s condition s' →
    Compiles c keys path (.concept page) join target s condition s'
  | value {path join target s} (p : Property) (comparator : Comparator) (x : Value) :
    Compiles c keys path (.value p comparator x) join target s
      (c.comparedCondition keys join target p comparator x) s
  | noProperty {path join target s p inner} :
    c.catalog.property? p = none →
    Compiles c keys path (.someProperty p inner) join target s .nothing s
  | someProperty {path join target s s₁ s' p inner info clause v condition group} :
    c.catalog.property? p = some info →
    c.opening join p info s = ((clause, v), s₁) →
    Compiles c keys path inner v (some ⟨p.key, info.datatype⟩) s₁ condition s' →
    condition.toPattern? v = some group →
    Compiles c keys path (.someProperty p inner) join target s
      (c.propertyCondition keys join target p clause condition group) s'
  | emptyProperty {path join target s s₁ s' p inner info clause v condition} :
    c.catalog.property? p = some info →
    c.opening join p info s = ((clause, v), s₁) →
    Compiles c keys path inner v (some ⟨p.key, info.datatype⟩) s₁ condition s' →
    condition.toPattern? v = none →
    Compiles c keys path (.someProperty p inner) join target s .nothing
      (s'.rollback s.subqueries.size)
  | conjunctionNone {path join target s} :
    Compiles c keys path (.conjunction []) join target s (c.everything keys join target) s
  | conjunctionOne {path join target s s' part condition} :
    Compiles c keys path part join target s condition s' →
    Compiles c keys path (.conjunction [part]) join target s condition s'
  | conjunction {path join target s s' parts conditions merged}
      {R : Description → Progress → Condition → Progress → Prop} :
    2 ≤ parts.length →
    (∀ part s condition s', R part s condition s' →
      Compiles c keys path part join none s condition s') →
    Chain R parts s conditions s' →
    Merge.all? join conditions = some merged →
    Compiles c keys path (.conjunction parts) join target s
      (c.attachRequested keys join target merged.finish) s'
  | clash {path join target s s₁ s' done part rest conditions condition merged}
      {R : Description → Progress → Condition → Progress → Prop} :
    2 ≤ (done ++ part :: rest).length →
    (∀ part s condition s', R part s condition s' →
      Compiles c keys path part join none s condition s') →
    Chain R done s conditions s₁ →
    Merge.all? join conditions = some merged →
    Compiles c keys path part join none s₁ condition s' →
    merged.absorb? join condition = none →
    Compiles c keys path (.conjunction (done ++ part :: rest)) join target s .nothing
      (s'.rollback s.subqueries.size)
  | disjunction {path join target s s' parts conditions}
      {R : Description → Progress → Condition → Progress → Prop} :
    (∀ part s condition s', R part s condition s' →
      Compiles c keys path part join target s condition s') →
    Chain R parts s conditions s' →
    (∀ condition ∈ conditions, condition.isEverything = false) →
    Compiles c keys path (.disjunction parts) join target s
      (c.attachRequested keys join target
        (alternativesCondition (conditions.filter (!·.isNothing)))) s'
  | saturation {path join target s s₁ s' done part rest conditions condition}
      {R : Description → Progress → Condition → Progress → Prop} :
    (∀ part s condition s', R part s condition s' →
      Compiles c keys path part join target s condition s') →
    Chain R done s conditions s₁ →
    (∀ condition ∈ conditions, condition.isEverything = false) →
    Compiles c keys path part join target s₁ condition s' →
    condition.isEverything = true →
    Compiles c keys path (.disjunction (done ++ part :: rest)) join target s
      (c.everything keys join target) (s'.rollback s.subqueries.size)

variable {c : Compiler} {keys : SortKeys}

theorem exists_compiles_conjunction {path : List Page} {parts : List Description}
    (ih : ∀ part ∈ parts, ∀ join target s, ∃ condition s',
      Compiles c keys path part join target s condition s')
    (join : Variable) (target : Option SortTarget) (s : Progress) :
    ∃ condition s', Compiles c keys path (.conjunction parts) join target s condition s' := by
  by_cases hlen : 2 ≤ parts.length
  · rcases Chain.run_until (Merge.absorb? join) (fun part hpart s => ih part hpart join none s) {} s
      with ⟨conditions, s', merged, chain, hm⟩ |
        ⟨done, part, rest, conditions, s₁, merged, condition, s', rfl, chain, hm, hpart, hclash⟩
    · exact ⟨_, _, .conjunction hlen (fun _ _ _ _ h => h) chain hm⟩
    · exact ⟨_, _, .clash hlen (fun _ _ _ _ h => h) chain hm hpart hclash⟩
  · match parts with
    | [] => exact ⟨_, _, .conjunctionNone⟩
    | [part] =>
      obtain ⟨condition, s', h⟩ := ih part (by simp) join target s
      exact ⟨condition, s', .conjunctionOne h⟩
    | _ :: _ :: _ => simp at hlen

theorem exists_compiles_disjunction {path : List Page} {parts : List Description}
    (ih : ∀ part ∈ parts, ∀ join target s, ∃ condition s',
      Compiles c keys path part join target s condition s')
    (join : Variable) (target : Option SortTarget) (s : Progress) :
    ∃ condition s', Compiles c keys path (.disjunction parts) join target s condition s' := by
  let collect : Unit → Condition → Option Unit :=
    fun _ b => if b.isEverything then none else some ()
  have hcollect : ∀ (conditions : List Condition) (m : Unit),
      conditions.foldlM collect () = some m →
        ∀ condition ∈ conditions, condition.isEverything = false := by
    intro conditions m
    induction conditions with
    | nil => simp
    | cons condition rest ih => cases h : condition.isEverything <;> simp [collect, h]; exact ih
  rcases Chain.run_until collect (fun part hpart s => ih part hpart join target s) () s
    with ⟨conditions, s', m, chain, hm⟩ |
      ⟨done, part, rest, conditions, s₁, m, condition, s', rfl, chain, hm, hpart, hlast⟩
  · exact ⟨_, _, .disjunction (fun _ _ _ _ h => h) chain (hcollect conditions m hm)⟩
  · have heverything : condition.isEverything = true := by simpa [collect] using hlast
    exact ⟨_, _, .saturation (fun _ _ _ _ h => h) chain (hcollect conditions m hm) hpart
      heverything⟩

-- There is a rule for every description, on every path and from every progress.
theorem exists_compiles (c : Compiler) (keys : SortKeys) (path : List Page) (d : Description)
    (join : Variable) (target : Option SortTarget) (s : Progress) :
    ∃ condition s', Compiles c keys path d join target s condition s' := by
  induction path, d using Catalog.expansion_induction c.catalog generalizing join target s with
  | thing path => exact ⟨_, _, .thing⟩
  | inNamespace path number => exact ⟨_, _, .inNamespace number⟩
  | inCategory path categories =>
    by_cases hnone : c.catalog.known categories = []
    · exact ⟨_, _, .noCategory hnone⟩
    · exact ⟨_, _, .inCategory hnone rfl⟩
  | concept path page ih =>
    cases h : c.catalog.enter? path page with
    | none => exact ⟨_, _, .noConcept h⟩
    | some definition =>
      obtain ⟨condition, s', hcondition⟩ := ih definition h join target s
      exact ⟨condition, s', .concept h hcondition⟩
  | value path p comparator x => exact ⟨_, _, .value p comparator x⟩
  | someProperty path p inner ih =>
    cases hp : c.catalog.property? p with
    | none => exact ⟨_, _, .noProperty hp⟩
    | some info =>
      cases hopen : c.opening join p info s with
      | mk start s₁ =>
        obtain ⟨clause, v⟩ := start
        obtain ⟨condition, s', hcondition⟩ := ih v (some ⟨p.key, info.datatype⟩) s₁
        cases hgroup : condition.toPattern? v with
        | none => exact ⟨_, _, .emptyProperty hp hopen hcondition hgroup⟩
        | some group => exact ⟨_, _, .someProperty hp hopen hcondition hgroup⟩
  | conjunction path parts ih => exact exists_compiles_conjunction ih join target s
  | disjunction path parts ih => exact exists_compiles_disjunction ih join target s

end Compiler

end WikiQuery
