import WikiQuery.Proofs.Compile.Adequacy
import WikiQuery.Proofs.Compile.Names
import WikiQuery.Proofs.Compile.Trace

namespace WikiQuery

theorem Progress.counter_close {s s' : Progress} {depth : UInt32} {q : Subquery}
    {closure : Option SubqueryId} (h : s.close depth q = (closure, s')) :
    s'.counter = s.counter := by
  rcases close_cases h with ⟨-, -, rfl⟩ | ⟨-, rfl⟩
  · rfl
  · rfl

namespace Compiler

variable {c : Compiler} {keys : SortKeys}

-- Variables that a counter has numbered on its way, each of them once.
structure Numbers (c : Compiler) (n : Nat) (vs : List Variable) (n' : Nat) : Prop where
  le : n ≤ n'
  numbered : ∀ v ∈ vs, ∃ k, n < k ∧ k ≤ n' ∧ v = c.numbered k
  nodup : vs.Nodup

theorem Numbers.nil {n n' : Nat} (h : n ≤ n') : c.Numbers n [] n' :=
  ⟨h, by simp, List.nodup_nil⟩

theorem Numbers.next (n : Nat) : c.Numbers n [c.numbered (n + 1)] (n + 1) where
  le := Nat.le_succ n
  numbered := by
    intro v hv
    exact ⟨n + 1, by omega, by omega, List.mem_singleton.mp hv⟩
  nodup := by simp

theorem Numbers.trans {n n₁ n₂ : Nat} {first second : List Variable}
    (h₁ : c.Numbers n first n₁) (h₂ : c.Numbers n₁ second n₂) :
    c.Numbers n (first ++ second) n₂ where
  le := Nat.le_trans h₁.le h₂.le
  numbered := by
    have hle₁ := h₁.le
    have hle₂ := h₂.le
    intro v hv
    rcases List.mem_append.mp hv with hv | hv
    · obtain ⟨k, hlo, hhi, hk⟩ := h₁.numbered v hv
      exact ⟨k, hlo, by omega, hk⟩
    · obtain ⟨k, hlo, hhi, hk⟩ := h₂.numbered v hv
      exact ⟨k, by omega, hhi, hk⟩
  nodup := by
    refine List.nodup_append.mpr ⟨h₁.nodup, h₂.nodup, ?_⟩
    -- numbers behind the middle are not among those up to it
    intro v hv w hw
    obtain ⟨k, -, hk, rfl⟩ := h₁.numbered v hv
    obtain ⟨l, hl, -, rfl⟩ := h₂.numbered w hw
    exact numbered_ne_of_lt (by omega)

theorem link_eq_triple (join : Variable) (p : Property) (v : Variable)
    (closure : Option SubqueryId) : ∃ s o, link join p v closure = .triple s p o closure ∧
      (Clause.triple s p o closure).Leads join v := by
  unfold link
  cases hp : p.inverse with
  | true => exact ⟨_, _, rfl, Clause.leads_iff.mpr (.inl ⟨hp, rfl, rfl⟩)⟩
  | false => exact ⟨_, _, rfl, Clause.leads_iff.mpr (.inr ⟨hp, rfl, rfl⟩)⟩

theorem introduces?_link (join : Variable) (p : Property) (v : Variable)
    (closure : Option SubqueryId) : (link join p v closure).introduces? = some v := by
  obtain ⟨s, o, hlink, hleads⟩ := link_eq_triple join p v closure
  rw [hlink]
  exact hleads.introduces?

theorem Numbers.of_opening {join v : Variable} {p : Property} {info : PropertyInfo}
    {s s₁ : Progress} {clause : Clause} (h : c.opening join p info s = ((clause, v), s₁)) :
    c.Numbers s.counter (Clause.introduced [clause]) s₁.counter := by
  obtain ⟨closure, s₀, hclose, ⟨-, rfl, rfl, rfl⟩ | ⟨-, -, rfl, rfl⟩⟩ := opening_cases h
  · have hcounter := Progress.counter_close hclose
    simp only [Clause.introduced, List.filterMap_cons, introduces?_link, List.filterMap_nil]
    rw [← hcounter]
    exact Numbers.next _
  · have hcounter := Progress.counter_close hclose
    exact Numbers.nil (Nat.le_of_eq hcounter.symm)

theorem trace_numbers :
    c.Trace fun s clauses s' => c.Numbers s.counter (Clause.introduced clauses) s'.counter where
  refl s := Numbers.nil (Nat.le_refl _)
  trans := by
    intro s s₁ s₂ first second h₁ h₂
    rw [Clause.introduced_append]
    exact h₁.trans h₂
  rollback h := Numbers.nil h.le
  inNamespace s join number := Numbers.nil (Nat.le_refl _)
  inCategory hclose := Numbers.nil (Nat.le_of_eq (Progress.counter_close hclose).symm)
  opening _ hopen := Numbers.of_opening hopen

theorem Compiles.numbers {path : List Page} {d : Description} {join : Variable}
    {target : Option SortTarget} {s s' : Progress} {condition : Condition}
    (h : Compiles c keys path d join target s condition s') :
    c.Numbers s.counter condition.introduced s'.counter :=
  h.trace trace_numbers

theorem scoped_link {join v : Variable} {p : Property} {closure : Option SubqueryId}
    {scope : List Variable} (h : join ∈ scope) : Clause.Scoped scope (link join p v closure) := by
  obtain ⟨s, o, hlink, hleads⟩ := link_eq_triple join p v closure
  rw [hlink]
  exact ⟨join, v, h, hleads⟩

-- The clause with which a property begins brings the variable of its values into scope.
theorem scopedAll_opening {join v : Variable} {p : Property} {info : PropertyInfo}
    {s s₁ : Progress} {clause : Clause} {group : Pattern}
    (h : c.opening join p info s = ((clause, v), s₁)) (hgroup : Clause.ScopedAll [v] group) :
    Clause.ScopedAll [join] (clause :: group) := by
  obtain ⟨closure, s₀, -, ⟨-, -, rfl, -⟩ | ⟨-, rfl, rfl, -⟩⟩ := opening_cases h
  · refine ⟨scoped_link (by simp), ?_⟩
    rw [introduces?_link]
    exact hgroup.mono (by simp)
  · have hjoin : Clause.Scoped [v] (.hasValue v p closure) := List.mem_singleton_self v
    exact ⟨hjoin, hgroup⟩

theorem scoped_comparedCondition (join : Variable) (target : Option SortTarget) (p : Property)
    (comparator : Comparator) (x : Value) :
    (c.comparedCondition keys join target p comparator x).Scoped [join] := by
  rcases c.form_comparedCondition keys join target p comparator x with
    h | ⟨r, h⟩ | ⟨test, h, htest⟩
  · exact Condition.scoped_of_everything h
  · exact (Condition.scoped_of_singleton h).mpr trivial
  · refine (Condition.scoped_of_filter h).mpr ?_
    intro t ht
    rw [List.mem_singleton.mp ht, htest]
    exact List.Subset.refl _

-- What is compiled for a variable starts from that variable alone, and so does each branch of it.
theorem Compiles.scoped {path : List Page} {d : Description} {join : Variable}
    {target : Option SortTarget} {s s' : Progress} {condition : Condition}
    (h : Compiles c keys path d join target s condition s') : condition.Scoped [join] := by
  have hrequested : ∀ {join target} {condition : Condition}, condition.Scoped [join] →
      (c.attachRequested keys join target condition).Scoped [join] := by
    intro join target condition hscoped
    exact (Condition.scoped_congr (form_attachRequested ..)).mpr hscoped
  induction h with
  | thing => exact Condition.scoped_of_everything (form_everything ..)
  | @inNamespace _ join _ _ number =>
    have hjoin : Clause.Scoped [join] (.inNamespace join number) := List.mem_singleton_self join
    exact (Condition.scoped_of_pattern (form_namespaceCondition ..)).mpr ⟨hjoin, trivial⟩
  | noCategory _ => exact Condition.scoped_of_nothing rfl
  | @inCategory _ join _ _ _ categories closure _ _ =>
    have hjoin : Clause.Scoped [join]
        (.inCategory join (c.catalog.known categories) closure) := List.mem_singleton_self join
    exact (Condition.scoped_of_pattern (form_categoryCondition ..)).mpr ⟨hjoin, trivial⟩
  | noConcept _ => exact Condition.scoped_of_nothing rfl
  | concept _ _ ih => exact ih
  | value p comparator x => exact scoped_comparedCondition ..
  | noProperty _ => exact Condition.scoped_of_nothing rfl
  | someProperty _ hopen _ hgroup ih =>
    have hscoped := ih.toPattern? (List.mem_singleton_self _) hgroup
    exact (Condition.scoped_of_pattern (form_propertyCondition ..)).mpr
      (scopedAll_opening hopen hscoped)
  | emptyProperty => exact Condition.scoped_of_nothing rfl
  | conjunctionNone => exact Condition.scoped_of_everything (form_everything ..)
  | conjunctionOne _ ih => exact ih
  | @conjunction _ join _ _ _ _ _ _ _ _ _ chain hmerge ih =>
    have hmerged := Merge.scoped_all? (List.mem_singleton_self join) (chain.forall_result ih) hmerge
    exact hrequested hmerged.finish
  | clash => exact Condition.scoped_of_nothing rfl
  | disjunction _ chain _ ih =>
    apply hrequested
    apply scoped_alternativesCondition
    intro b hb
    exact chain.forall_result ih b (List.mem_filter.mp hb).1
  | saturation => exact Condition.scoped_of_everything (form_everything ..)

-- The variables of a condition. Its clauses speak of what is in scope where they stand, and a
-- triple leads from there to a numbered variable that no other triple introduces.
structure WellScoped (c : Compiler) (join : Variable) (condition : Condition) : Prop where
  inScope : condition.Scoped [join]
  linear : condition.introduced.Nodup
  numbered : ∀ v ∈ condition.introduced, ∃ n, 1 ≤ n ∧ v = c.numbered n
  notMem : join ∉ condition.introduced
  linked : ∀ before s p o closure after,
    condition.atoms = before ++ Clause.triple s p o closure :: after →
    ∃ anchor v, (Clause.triple s p o closure).Leads anchor v ∧
      v ∈ condition.introduced ∧ v ∉ Clause.introduced (before ++ after) ∧
      (anchor = join ∨ anchor ∈ Clause.introduced before)

theorem exists_link {join : Variable} {clauses before after : List Clause} {s o : Term}
    {p : Property} {closure : Option SubqueryId} (hscoped : Clause.ScopedAll [join] clauses)
    (hlinear : (Clause.introduced clauses).Nodup)
    (hsplit : clauses = before ++ Clause.triple s p o closure :: after) :
    ∃ anchor v, (Clause.triple s p o closure).Leads anchor v ∧
      v ∈ Clause.introduced clauses ∧ v ∉ Clause.introduced (before ++ after) ∧
      (anchor = join ∨ anchor ∈ Clause.introduced before) := by
  subst hsplit
  obtain ⟨-, ⟨anchor, v, hanchor, hleads⟩, -⟩ := Clause.scopedAll_append.mp hscoped
  have hintroduced : Clause.introduced (before ++ Clause.triple s p o closure :: after) =
      Clause.introduced before ++ v :: Clause.introduced after := by
    rw [Clause.introduced_append]
    simp [Clause.introduced, hleads.introduces?]
  rw [hintroduced] at hlinear ⊢
  refine ⟨anchor, v, hleads, by simp, ?_, by simpa using hanchor⟩
  rw [Clause.introduced_append]
  exact (List.nodup_cons.mp (List.perm_middle.nodup_iff.mp hlinear)).1

theorem WellScoped.of_linear {join : Variable} {condition : Condition}
    (hscoped : condition.Scoped [join]) (hlinear : condition.introduced.Nodup)
    (hnumbered : ∀ v ∈ condition.introduced, ∃ n, 1 ≤ n ∧ v = c.numbered n)
    (hjoin : ∀ n, join ≠ c.numbered n) : c.WellScoped join condition where
  inScope := hscoped
  linear := hlinear
  numbered := hnumbered
  notMem := by
    intro hmem
    obtain ⟨n, -, hn⟩ := hnumbered join hmem
    exact hjoin n hn
  linked _ _ _ _ _ _ hsplit := exists_link hscoped.atoms hlinear hsplit

theorem Compiles.wellScoped {path : List Page} {d : Description} {join : Variable}
    {target : Option SortTarget} {s s' : Progress} {condition : Condition}
    (h : Compiles c keys path d join target s condition s')
    (hjoin : ∀ n, join ≠ c.numbered n) :
    c.WellScoped join condition ∧ ∀ b ∈ condition.form.branches, c.WellScoped join b := by
  have hnumbered : ∀ v ∈ condition.introduced, ∃ n, 1 ≤ n ∧ v = c.numbered n := by
    intro v hv
    obtain ⟨n, hlo, -, hn⟩ := h.numbers.numbered v hv
    exact ⟨n, by omega, hn⟩
  refine ⟨.of_linear h.scoped h.numbers.nodup hnumbered hjoin, ?_⟩
  intro b hb
  have hsub := Condition.introduced_branch hb
  exact .of_linear (h.scoped.branch hb) (h.numbers.nodup.sublist hsub)
    (fun v hv => hnumbered v (hsub.subset hv)) hjoin

end Compiler

-- The condition of a query is well scoped, from the variable of the results, and so is each of its
-- branches by itself.
theorem Session.query_wellScoped (s : Session) (hc : s.compiler.Standard)
    (hsettings : s.compiler.settings.fault? = none) (d : Description)
    (sorts : List RequestedSort) :
    ∃ q s', s.query d sorts = (.ok q, s') ∧ q.result = ⟨s.compiler.settings.result⟩ ∧
      s.compiler.WellScoped q.result q.condition ∧
      ∀ b ∈ q.condition.form.branches, s.compiler.WellScoped q.result b := by
  obtain ⟨condition, p, s', h, hquery⟩ := s.query_run hc d sorts
  refine ⟨_, s', hquery, rfl, ?_⟩
  exact h.wellScoped (Compiler.result_ne_numbered hsettings)

theorem Session.query_wellScoped_neighbours :
    let s : Session :=
      { compiler := { catalog := ({} : Catalog).addProperty "Borders" .page } }
    let d : Description := .conjunction
      [.someProperty { key := "Borders" } (.someProperty { key := "Borders" } .thing),
        .someProperty { key := "Borders", inverse := true } .thing]
    s.compiler.Standard ∧ s.compiler.settings.fault? = none ∧
      ∃ q s', s.query d [] = (.ok q, s') ∧ q.result = ⟨s.compiler.settings.result⟩ ∧
        s.compiler.WellScoped q.result q.condition ∧
        ∀ b ∈ q.condition.form.branches, s.compiler.WellScoped q.result b := by
  intro s d
  have hc : s.compiler.Standard := Compiler.standard_of_builders rfl
  have hsettings : s.compiler.settings.fault? = none := by decide +kernel
  exact ⟨hc, hsettings, query_wellScoped s hc hsettings d []⟩

end WikiQuery
