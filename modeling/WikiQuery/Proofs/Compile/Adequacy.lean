import WikiQuery.Compile.Session
import WikiQuery.Proofs.Compile.Rules

namespace WikiQuery

theorem Work.progress_rollback (w : Work) (size : Nat) :
    (w.rollback size).progress = w.progress.rollback size := by
  unfold Work.rollback Progress.rollback
  by_cases h : size < w.subqueries.size
  · simp [h, Work.progress, Work.report]
  · -- there is nothing to forget, so that keeping the first ones keeps all
    have htake : w.subqueries.entries.take size = w.subqueries.entries :=
      List.take_of_length_le (Nat.not_lt.mp h)
    simp [h, Work.progress, SubqueryTable.truncate, htake]

namespace Build

variable {α β : Type}

-- From any work with a progress, a step succeeds with a result and leaves a progress behind.
def Yields (x : Build α) (s : Progress) (a : α) (s' : Progress) : Prop :=
  ∀ w, w.progress = s → ∃ w', x.run.run w = (.ok a, w') ∧ w'.progress = s'

namespace Yields

theorem pure (a : α) (s : Progress) : (pure a : Build α).Yields s a s :=
  fun w hw => ⟨w, rfl, hw⟩

theorem bind {x : Build α} {f : α → Build β} {a : α} {b : β} {s s₁ s' : Progress}
    (hx : x.Yields s a s₁) (hf : (f a).Yields s₁ b s') : (x >>= f).Yields s b s' := by
  intro w hw
  obtain ⟨w₁, hrun, hw₁⟩ := hx w hw
  obtain ⟨w₂, hrun', hw₂⟩ := hf w₁ hw₁
  refine ⟨w₂, ?_, hw₂⟩
  rw [ExceptT.run_bind, StateT.run_bind]
  simp only [hrun]
  exact hrun'

theorem report (e : Event) (s : Progress) : (report e).Yields s () s :=
  fun w hw => ⟨w.report e, rfl, hw⟩

theorem checkpoint (s : Progress) : checkpoint.Yields s s.subqueries.size s := by
  rintro w rfl
  exact ⟨w, rfl, rfl⟩

theorem fresh (stem : String) (s : Progress) :
    (fresh stem).Yields s ⟨stem ++ Text.decimal (s.counter + 1)⟩
      ⟨s.counter + 1, s.subqueries⟩ := by
  rintro w rfl
  exact ⟨(w.fresh stem).2, rfl, rfl⟩

theorem rollback (size : Nat) (s : Progress) : (rollback size).Yields s () (s.rollback size) := by
  rintro w rfl
  exact ⟨w.rollback size, rfl, w.progress_rollback size⟩

theorem register (q : Subquery) (s : Progress) :
    (register q).Yields s (s.subqueries.register q).1
      ⟨s.counter, (s.subqueries.register q).2⟩ := by
  rintro w rfl
  exact ⟨(w.register q).2, rfl, rfl⟩

end Yields

end Build

namespace Compiler

open Build

variable {c : Compiler} {keys : SortKeys} {join : Variable} {target : Option SortTarget}

theorem registerClosure_yields {depth : UInt32} {q : Subquery} {closure : Option SubqueryId}
    {s s' : Progress} (h : s.close depth q = (closure, s')) :
    (registerClosure depth q).Yields s closure s' := by
  unfold registerClosure
  by_cases hd : depth = 0
  · simp only [Progress.close, hd, ite_true, Prod.mk.injEq] at h
    obtain ⟨rfl, rfl⟩ := h
    simpa only [hd, ite_true] using Yields.pure _ s
  · simp only [Progress.close, hd, ite_false, Prod.mk.injEq] at h
    obtain ⟨rfl, rfl⟩ := h
    simp only [hd, ite_false]
    exact (Yields.register q s).bind (.pure _ _)

theorem opening_yields {v : Variable} {p : Property} {info : PropertyInfo} {clause : Clause}
    {s s' : Progress} (h : c.opening join p info s = ((clause, v), s')) :
    (do
      let closure ← registerClosure c.settings.propertyDepth
        (.property p info.id c.settings.propertyDepth)
      c.relate join p info closure).Yields s (clause, v) s' := by
  cases hclose : s.close c.settings.propertyDepth
      (.property p info.id c.settings.propertyDepth) with
  | mk closure s₁ =>
    refine (registerClosure_yields hclose).bind ?_
    simp only [opening, hclose] at h
    unfold relate
    cases hpage : info.datatype.isPage with
    | true =>
      simp only [hpage, ite_true, Prod.mk.injEq] at h
      obtain ⟨⟨rfl, rfl⟩, rfl⟩ := h
      simp only [ite_true]
      refine (Yields.fresh c.settings.stem s₁).bind ?_
      unfold link
      cases p.inverse <;> exact .pure _ _
    | false =>
      simp only [hpage, Bool.false_eq_true, ite_false, Prod.mk.injEq] at h
      obtain ⟨⟨rfl, rfl⟩, rfl⟩ := h
      exact .pure _ s₁

-- The numbers collected so far stay, and the new ones among those to come follow.
theorem resolveCategories_yields (categories : List Page) (ids : List Nat) (s : Progress) :
    (c.resolveCategories categories ids).Yields s
      (ids ++ ((categories.filterMap c.catalog.category?).filter (· ∉ ids)).eraseDups) s := by
  induction categories generalizing ids with
  | nil => simpa [resolveCategories] using Yields.pure ids s
  | cons category rest ih =>
    rw [resolveCategories]
    cases hid : c.catalog.category? category with
    | none =>
      rw [List.filterMap_cons_none hid]
      exact (Yields.report (.unresolvedCategory category) s).bind (ih ids)
    | some id =>
      rw [List.filterMap_cons_some hid]
      by_cases hmem : id ∈ ids
      · simpa [hmem] using ih ids
      · have hfilter : ∀ later : List Nat, (later.filter (· ∉ ids)).filter (fun x => !x == id) =
            later.filter (· ∉ ids ++ [id]) := by
          intro later
          rw [List.filter_filter]
          apply List.filter_congr
          intro x _
          by_cases hx : x = id <;> simp [hx]
        rw [List.filter_cons_of_pos (by simpa using hmem), List.eraseDups_cons, hfilter]
        simpa [hmem] using ih (ids ++ [id])

theorem known_yields (categories : List Page) (s : Progress) :
    (c.resolveCategories categories []).Yields s (c.catalog.known categories) s := by
  have h := resolveCategories_yields (c := c) categories [] s
  rwa [List.filter_eq_self.mpr (by simp), List.nil_append] at h

theorem buildCategories_yields_nothing {categories : List Page}
    (hnone : c.catalog.known categories = []) (s : Progress) :
    (c.buildCategories keys join target categories).Yields s .nothing s := by
  refine (known_yields categories s).bind ?_
  rw [hnone]
  exact .pure _ s

theorem buildCategories_yields {categories : List Page} {closure : Option SubqueryId}
    {s s' : Progress} (hsome : c.catalog.known categories ≠ [])
    (hclose : s.close c.settings.categoryDepth
      (.categories (c.catalog.known categories) c.settings.categoryDepth) = (closure, s')) :
    (c.buildCategories keys join target categories).Yields s
      (c.categoryCondition keys join target (c.catalog.known categories) closure) s' := by
  refine (known_yields categories s).bind ?_
  rw [if_neg (by simpa using hsome)]
  exact (registerClosure_yields hclose).bind (.pure _ s')

theorem buildValue_yields {p : Property} {comparator : Comparator} {x : Value} (s : Progress) :
    (c.buildValue keys join target p comparator x).Yields s
      (c.comparedCondition keys join target p comparator x) s := by
  unfold buildValue comparedCondition
  cases c.valueCondition? join p comparator x with
  | some condition => exact .pure _ s
  | none => exact (Yields.report _ s).bind (.pure _ s)

end Compiler

namespace Machine

open Build

section Map

variable {m : Type → Type} [Monad m] {t : Machine m} {c : Compiler} {α β : Type} (f : α → β)
  {join : Variable} {target : Option SortTarget}

theorem conjuncts_map (again : β → m Condition) (l : List α) (merged : Merge) :
    t.conjuncts again join merged (l.map f) =
      t.conjuncts (fun a => again (f a)) join merged l := by
  induction l generalizing merged with
  | nil => rfl
  | cons a rest ih =>
    rw [List.map_cons, conjuncts, conjuncts]
    simp only [ih]

theorem branches_map (again : β → m Condition) (l : List α) :
    branches again (l.map f) = branches (fun a => again (f a)) l := by
  induction l with
  | nil => rfl
  | cons a rest ih => rw [List.map_cons, branches, branches, ih]

theorem conjunction_map (again : β → Option SortTarget → m Condition) (l : List α) :
    t.conjunction c join target again (l.map f) =
      t.conjunction c join target (fun a => again (f a)) l := by
  rcases l with _ | ⟨first, _ | ⟨second, rest⟩⟩
  · rfl
  · rfl
  · have hconjuncts : t.conjuncts (again · none) join {} ((first :: second :: rest).map f) =
        t.conjuncts (fun a => again (f a) none) join {} (first :: second :: rest) :=
      conjuncts_map f (again · none) _ _
    rw [conjunction, ← hconjuncts]
    rfl

theorem disjunction_map (again : β → m Condition) (l : List α) :
    t.disjunction c join target again (l.map f) =
      t.disjunction c join target (fun a => again (f a)) l := by
  rw [disjunction, disjunction, branches_map, List.length_map]

end Map

variable {c : Compiler} {keys : SortKeys} {join : Variable} {target : Option SortTarget} {α : Type}
  {s s₁ s' : Progress}

theorem tentatively_yields {x : Build (Option α)} {a : α} (h : x.Yields s (some a) s') :
    ((plain keys).tentatively x).Yields s (some a) s' :=
  (Yields.checkpoint s).bind (h.bind (.pure _ s'))

theorem tentatively_yields_none {x : Build (Option α)} (h : x.Yields s none s') :
    ((plain keys).tentatively x).Yields s none (s'.rollback s.subqueries.size) :=
  (Yields.checkpoint s).bind (h.bind ((Yields.rollback _ s').bind (.pure _ _)))

-- The merge that a chain of conditions gives is the one that the parts are merged to.
theorem conjuncts_yields {again : α → Build Condition} {parts : List α}
    {conditions : List Condition} {m merged : Merge}
    (chain : Chain (fun part s condition s' => (again part).Yields s condition s')
      parts s conditions s')
    (hmerge : conditions.foldlM (Merge.absorb? join) m = some merged) :
    ((plain keys).conjuncts again join m parts).Yields s (some merged) s' := by
  induction chain generalizing m with
  | nil =>
    cases hmerge
    exact .pure _ _
  | cons first _ ih =>
    rw [List.foldlM_cons] at hmerge
    obtain ⟨m', habsorb, hrest⟩ := Option.bind_eq_some_iff.mp hmerge
    rw [conjuncts]
    refine first.bind ?_
    rw [habsorb]
    exact ih hrest

-- The parts are merged up to the first that does not go together with those before it.
theorem conjuncts_yields_none {again : α → Build Condition} {done rest : List α} {part : α}
    {conditions : List Condition} {condition : Condition} {m merged : Merge}
    (chain : Chain (fun part s condition s' => (again part).Yields s condition s')
      done s conditions s₁)
    (hmerge : conditions.foldlM (Merge.absorb? join) m = some merged)
    (hpart : (again part).Yields s₁ condition s') (hclash : merged.absorb? join condition = none) :
    ((plain keys).conjuncts again join m (done ++ part :: rest)).Yields s none s' := by
  induction chain generalizing m with
  | nil =>
    cases hmerge
    rw [List.nil_append, conjuncts]
    refine hpart.bind ?_
    rw [hclash]
    cases merged.conflict? condition with
    | none => exact .pure _ s'
    | some clash => exact (Yields.report _ s').bind (.pure _ s')
  | cons first _ ih =>
    rw [List.foldlM_cons] at hmerge
    obtain ⟨m', habsorb, hrest⟩ := Option.bind_eq_some_iff.mp hmerge
    rw [List.cons_append, conjuncts]
    refine first.bind ?_
    rw [habsorb]
    exact ih hrest hpart

theorem branches_yields {again : α → Build Condition} {parts : List α}
    {conditions : List Condition}
    (chain : Chain (fun part s condition s' => (again part).Yields s condition s')
      parts s conditions s')
    (hrest : ∀ condition ∈ conditions, condition.isEverything = false) :
    (branches again parts).Yields s (some (conditions.filter (!·.isNothing))) s' := by
  induction chain with
  | nil => exact .pure _ _
  | @cons _ _ condition conditions _ _ _ first _ ih =>
    obtain ⟨hcondition, hrest⟩ := List.forall_mem_cons.mp hrest
    rw [branches]
    refine first.bind ?_
    simp only [hcondition, Bool.false_eq_true, ite_false]
    refine (ih hrest).bind ?_
    cases hnothing : condition.isNothing with
    | true => simpa [hnothing] using Yields.pure _ _
    | false => simpa [hnothing] using Yields.pure _ _

theorem branches_yields_none {again : α → Build Condition} {done rest : List α} {part : α}
    {conditions : List Condition} {condition : Condition}
    (chain : Chain (fun part s condition s' => (again part).Yields s condition s')
      done s conditions s₁)
    (hrest : ∀ condition ∈ conditions, condition.isEverything = false)
    (hpart : (again part).Yields s₁ condition s') (heverything : condition.isEverything = true) :
    (branches again (done ++ part :: rest)).Yields s none s' := by
  induction chain with
  | nil =>
    rw [List.nil_append, branches]
    refine hpart.bind ?_
    simp only [heverything, ite_true]
    exact .pure _ s'
  | @cons _ _ b _ _ _ _ first _ ih =>
    obtain ⟨hb, hrest⟩ := List.forall_mem_cons.mp hrest
    rw [List.cons_append, branches]
    refine first.bind ?_
    simp only [hb, Bool.false_eq_true, ite_false]
    refine (ih hrest hpart).bind ?_
    cases b.isNothing <;> exact .pure _ s'

section Concept

variable {page : Page} {definition : Description} {condition : Condition}
  {expand : (definition : Description) → c.catalog.concept? page = some definition →
    Build Condition → Build Condition}

theorem concept_yields (hdefined : c.catalog.concept? page = some definition)
    (h : (expand definition hdefined ((plain keys).circular page)).Yields s condition s') :
    ((plain keys).concept c page expand).Yields s condition s' := by
  unfold concept
  split
  · rename_i hnone
    rw [hdefined] at hnone
    cases hnone
  · rename_i other hother
    have heq : other = definition := Option.some.inj (hother.symm.trans hdefined)
    subst heq
    exact h

theorem concept_yields_nothing (h : ∀ definition hdefined,
      (expand definition hdefined ((plain keys).circular page)).Yields s .nothing s) :
    ((plain keys).concept c page expand).Yields s .nothing s := by
  unfold concept
  split
  · exact (Yields.report _ s).bind (.pure _ s)
  · exact h _ _

end Concept

section Property

variable {p : Property} {again : Variable → Option SortTarget → Build Condition}
  {info : PropertyInfo} {clause : Clause} {v : Variable} {condition : Condition} {group : Pattern}

theorem someProperty_yields_unresolved (hnone : c.catalog.property? p = none) :
    ((plain keys).someProperty c join target p again).Yields s .nothing s := by
  rw [someProperty, hnone]
  exact (Yields.report _ s).bind (.pure _ s)

theorem related_yields (hopen : c.opening join p info s = ((clause, v), s₁))
    (hinner : (again v (some ⟨p.key, info.datatype⟩)).Yields s₁ condition s') :
    ((plain keys).related c join p info again).Yields s
      ((condition.toPattern? v).map fun group => (clause, condition, group)) s' := by
  show (Compiler.registerClosure _ _ >>= fun closure => c.relate join p info closure >>=
    fun related => again related.2 _ >>= fun condition => Pure.pure _ : Build _).Yields _ _ _
  rw [← bind_assoc]
  exact (Compiler.opening_yields hopen).bind (hinner.bind (.pure _ s'))

theorem someProperty_yields (hsome : c.catalog.property? p = some info)
    (hopen : c.opening join p info s = ((clause, v), s₁))
    (hinner : (again v (some ⟨p.key, info.datatype⟩)).Yields s₁ condition s')
    (hgroup : condition.toPattern? v = some group) :
    ((plain keys).someProperty c join target p again).Yields s
      (c.propertyCondition keys join target p clause condition group) s' := by
  have hrelated : ((plain keys).related c join p info again).Yields s _ s' :=
    related_yields hopen hinner
  rw [hgroup, Option.map_some] at hrelated
  rw [someProperty, hsome]
  exact (tentatively_yields hrelated).bind (.pure _ s')

theorem someProperty_yields_nothing (hsome : c.catalog.property? p = some info)
    (hopen : c.opening join p info s = ((clause, v), s₁))
    (hinner : (again v (some ⟨p.key, info.datatype⟩)).Yields s₁ condition s')
    (hgroup : condition.toPattern? v = none) :
    ((plain keys).someProperty c join target p again).Yields s .nothing
      (s'.rollback s.subqueries.size) := by
  have hrelated : ((plain keys).related c join p info again).Yields s _ s' :=
    related_yields hopen hinner
  rw [hgroup, Option.map_none] at hrelated
  rw [someProperty, hsome]
  exact (tentatively_yields_none hrelated).bind (.pure _ _)

end Property

end Machine

namespace Compiler

open Build

variable {c : Compiler} {keys : SortKeys}

-- From any work with a progress, the compiler comes to a condition and the progress behind it.
def Runs (c : Compiler) (keys : SortKeys) (path : List Page) (join : Variable)
    (target : Option SortTarget) (d : Description) (s : Progress) (condition : Condition)
    (s' : Progress) : Prop :=
  (c.compile keys path d join target).Yields s condition s'

-- A compilation hands the description to the rule for its kind.
theorem runs_of_build (hc : c.Standard) {path : List Page} {d : Description} {join : Variable}
    {target : Option SortTarget} {s s' : Progress} {condition : Condition}
    (h : (c.build keys path d.kind d join target).Yields s condition s') :
    c.Runs keys path join target d s condition s' := by
  obtain ⟨b, hb, hrecipe⟩ := hc d.kind
  unfold Runs
  rw [compile, Machine.compile, hb]
  refine (Yields.report _ s).bind ?_
  rw [hrecipe]
  exact h

section Rules

variable {path : List Page} {join : Variable} {target : Option SortTarget}

theorem build_concept (page : Page) :
    c.build keys path .concept (.concept page) join target =
      (Machine.plain keys).concept c page fun definition _ otherwise =>
        if page ∈ path then otherwise
        else c.compile keys (page :: path) definition join target := rfl

theorem build_conjunction (parts : List Description) :
    c.build keys path .conjunction (.conjunction parts) join target =
      (Machine.plain keys).conjunction c join target
        (fun part => c.compile keys path part join) parts := by
  calc
    _ = (Machine.plain keys).conjunction c join target (fun part => c.compile keys path part join)
        (parts.attach.map Subtype.val) := (Machine.conjunction_map Subtype.val _ _).symm
    _ = _ := by rw [List.attach_map_subtype_val]

theorem build_disjunction (parts : List Description) :
    c.build keys path .disjunction (.disjunction parts) join target =
      (Machine.plain keys).disjunction c join target
        (fun part => c.compile keys path part join target) parts := by
  calc
    _ = (Machine.plain keys).disjunction c join target
        (fun part => c.compile keys path part join target) (parts.attach.map Subtype.val) :=
      (Machine.disjunction_map Subtype.val _ _).symm
    _ = _ := by rw [List.attach_map_subtype_val]

theorem build_conjunction_of_le {parts : List Description} (hlen : 2 ≤ parts.length) :
    c.build keys path .conjunction (.conjunction parts) join target = (do
      match ← (Machine.plain keys).tentatively ((Machine.plain keys).conjuncts
        (fun part => c.compile keys path part join none) join {} parts) with
      | some merged => return c.attachRequested keys join target merged.finish
      | none => return .nothing) := by
  rcases parts with _ | ⟨first, _ | ⟨second, rest⟩⟩
  · simp at hlen
  · simp at hlen
  · rw [build_conjunction]
    rfl

end Rules

-- Running the compiler gives what the rules derive.
theorem Compiles.runs (hc : c.Standard) {path : List Page} {d : Description} {join : Variable}
    {target : Option SortTarget} {s s' : Progress} {condition : Condition}
    (h : Compiles c keys path d join target s condition s') :
    c.Runs keys path join target d s condition s' := by
  apply runs_of_build hc
  induction h with
  | thing => exact .pure _ _
  | inNamespace number => exact .pure _ _
  | noCategory hnone => exact buildCategories_yields_nothing hnone _
  | inCategory hsome hclose => exact buildCategories_yields hsome hclose
  | noConcept hnone =>
    rw [Description.kind, build_concept]
    refine Machine.concept_yields_nothing ?_
    intro definition hdefined
    have hentered := (Catalog.enter?_eq_none.mp hnone).resolve_right (by simp [hdefined])
    rw [if_pos hentered]
    exact (Yields.report _ _).bind (.pure _ _)
  | concept hsome _ ih =>
    obtain ⟨hpath, hdefined⟩ := Catalog.enter?_eq_some.mp hsome
    rw [Description.kind, build_concept]
    refine Machine.concept_yields hdefined ?_
    rw [if_neg hpath]
    exact runs_of_build hc ih
  | value p comparator x => exact buildValue_yields _
  | noProperty hnone => exact Machine.someProperty_yields_unresolved hnone
  | someProperty hsome hopen _ hgroup ih =>
    exact Machine.someProperty_yields hsome hopen (runs_of_build hc ih) hgroup
  | emptyProperty hsome hopen _ hgroup ih =>
    exact Machine.someProperty_yields_nothing hsome hopen (runs_of_build hc ih) hgroup
  | conjunctionNone => exact .pure _ _
  | conjunctionOne _ ih => exact runs_of_build hc ih
  | conjunction hlen _ chain hmerge ih =>
    rw [Description.kind, build_conjunction_of_le hlen]
    have hparts := chain.imp fun part s b s' h => runs_of_build hc (ih part s b s' h)
    exact (Machine.tentatively_yields (Machine.conjuncts_yields hparts hmerge)).bind (.pure _ _)
  | clash hlen _ chain hmerge _ hclash ih ihpart =>
    rw [Description.kind, build_conjunction_of_le hlen]
    have hdone := chain.imp fun part s b s' h => runs_of_build hc (ih part s b s' h)
    exact (Machine.tentatively_yields_none (Machine.conjuncts_yields_none hdone hmerge
      (runs_of_build hc ihpart) hclash)).bind (.pure _ _)
  | disjunction _ chain hrest ih =>
    rw [Description.kind, build_disjunction]
    have hparts := chain.imp fun part s b s' h => runs_of_build hc (ih part s b s' h)
    exact (Machine.tentatively_yields (Machine.branches_yields hparts hrest)).bind
      ((Yields.report _ _).bind (.pure _ _))
  | saturation _ chain hrest _ heverything ih ihpart =>
    rw [Description.kind, build_disjunction]
    have hdone := chain.imp fun part s b s' h => runs_of_build hc (ih part s b s' h)
    exact (Machine.tentatively_yields_none (Machine.branches_yields_none hdone hrest
      (runs_of_build hc ihpart) heverything)).bind (.pure _ _)

-- Every run succeeds, with a result that the rules derive.
theorem compile_run (hc : c.Standard) (path : List Page) (d : Description) (join : Variable)
    (target : Option SortTarget) (w : Work) :
    ∃ condition w', (c.compile keys path d join target).run.run w = (.ok condition, w') ∧
      Compiles c keys path d join target w.progress condition w'.progress := by
  obtain ⟨condition, s', h⟩ := exists_compiles c keys path d join target w.progress
  obtain ⟨w', hrun, rfl⟩ := h.runs hc w rfl
  exact ⟨condition, w', hrun, h⟩

end Compiler

-- What the root of a query is sorted by.
def SortKeys.rootTarget (keys : SortKeys) : Option SortTarget :=
  if keys.contains SortKeys.mainSubject then some SortTarget.mainSubject else none

-- What compiles from a fresh start is the query of its description.
theorem Compiler.Compiles.query {s : Session} (hc : s.compiler.Standard) {d : Description}
    {sorts : List RequestedSort} {condition : Condition} {p : Progress}
    (h : s.compiler.Compiles (SortKeys.ofRequests sorts) [] d ⟨s.compiler.settings.result⟩
      (SortKeys.rootTarget (SortKeys.ofRequests sorts)) {} condition p) :
    ∃ s', s.query d sorts = (.ok ⟨condition, p.subqueries, SortKeys.ofRequests sorts,
        ⟨s.compiler.settings.result⟩⟩, s') ∧
      s'.compiler = s.compiler ∧ s'.work.counter = p.counter := by
  let w : Work := ({ log := s.work.log } : Work).report
    (.compiling d.kind d.depth (SortKeys.ofRequests sorts).size)
  obtain ⟨w', hrun, rfl⟩ := h.runs hc w rfl
  have hroot : s.compileRoot d ⟨s.compiler.settings.result⟩ (SortKeys.ofRequests sorts) =
      (.ok condition, { s with sortKeys := SortKeys.ofRequests sorts, work := w' }) := by
    simp only [Session.compileRoot, Session.compile, Session.run]
    exact congrArg (fun r => (r.1, { s with sortKeys := SortKeys.ofRequests sorts, work := r.2 }))
      hrun
  simp only [Session.query, hroot]
  exact ⟨_, rfl, rfl, rfl⟩

-- Every query is compiled, as the rules derive it.
theorem Session.query_run (s : Session) (hc : s.compiler.Standard) (d : Description)
    (sorts : List RequestedSort) :
    ∃ condition p s', s.compiler.Compiles (SortKeys.ofRequests sorts) [] d
        ⟨s.compiler.settings.result⟩ (SortKeys.rootTarget (SortKeys.ofRequests sorts)) {}
        condition p ∧
      s.query d sorts = (.ok ⟨condition, p.subqueries, SortKeys.ofRequests sorts,
        ⟨s.compiler.settings.result⟩⟩, s') := by
  obtain ⟨condition, p, h⟩ := Compiler.exists_compiles s.compiler
    (SortKeys.ofRequests sorts) [] d ⟨s.compiler.settings.result⟩
    (SortKeys.rootTarget (SortKeys.ofRequests sorts)) {}
  obtain ⟨s', hquery, -⟩ := h.query hc
  exact ⟨condition, p, s', h, hquery⟩

end WikiQuery
