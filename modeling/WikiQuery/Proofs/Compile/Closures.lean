import Mathlib.Tactic.ByContra
import WikiQuery.Proofs.Compile.Adequacy
import WikiQuery.Proofs.Compile.Trace
import WikiQuery.Proofs.Compile.Weak

namespace WikiQuery

namespace SubqueryTable

theorem get?_mono {t t' : SubqueryTable} {id : SubqueryId} {q : Subquery}
    (h : t.entries <+: t'.entries) (hq : t.get? id = some q) : t'.get? id = some q := by
  obtain ⟨added, hadded⟩ := h
  unfold get? at hq ⊢
  obtain ⟨hlt, -⟩ := List.getElem?_eq_some_iff.mp hq
  rw [← hadded, List.getElem?_append_left hlt]
  exact hq

theorem truncate_grown {t t' : SubqueryTable} (h : t.entries <+: t'.entries) :
    t'.truncate t.size = t := by
  have htake := List.prefix_iff_eq_take.mp h
  unfold truncate size
  rw [← htake]

-- A sub-query is registered in a table that extends the old one, with no other new entry.
theorem register_cases (t : SubqueryTable) (q : Subquery) :
    t.entries <+: (t.register q).2.entries ∧
    (t.register q).2.get? (t.register q).1 = some q ∧
    ∀ i, t.size ≤ i → i < (t.register q).2.size → (t.register q).1 = ⟨i⟩ := by
  unfold register
  cases hi : t.entries.idxOf? q with
  | none =>
    refine ⟨List.prefix_append _ _, ?_, ?_⟩
    · simp [get?, size]
    · intro i hlo hhi
      simp only [size, List.length_append, List.length_singleton] at hlo hhi ⊢
      rw [show t.entries.length = i by omega]
  | some i =>
    refine ⟨List.prefix_refl _, ?_, ?_⟩
    · obtain ⟨hlt, heq, -⟩ := List.idxOf?_eq_some_iff.mp hi
      simp only [get?]
      rw [List.getElem?_eq_getElem hlt, heq]
    · intro j hlo hhi
      dsimp only at hhi
      omega

variable {t : SubqueryTable} {q : Subquery} {id : SubqueryId}

theorem register_of_notMem (hq : q ∉ t.entries) :
    t.register q = (⟨t.size⟩, ⟨t.entries ++ [q]⟩) := by
  rw [register, List.idxOf?_eq_none_iff.mpr hq]

theorem register_of_mem (hq : q ∈ t.entries) : (t.register q).2 = t := by
  cases hi : t.entries.idxOf? q with
  | none => exact absurd hq (List.idxOf?_eq_none_iff.mp hi)
  | some i => rw [register, hi]

theorem get?_register (hq : q ∈ t.entries) : t.get? (t.register q).1 = some q := by
  obtain ⟨-, hplace, -⟩ := t.register_cases q
  rw [register_of_mem hq] at hplace
  exact hplace

theorem nodup_register (h : t.entries.Nodup) (q : Subquery) :
    (t.register q).2.entries.Nodup := by
  by_cases hq : q ∈ t.entries
  · rw [register_of_mem hq]
    exact h
  · rw [register_of_notMem hq]
    refine List.nodup_append.mpr ⟨h, List.pairwise_singleton _ q, ?_⟩
    rintro other hother new hnew rfl
    exact hq (List.mem_singleton.mp hnew ▸ hother)

-- Where no sub-query has two places, one that has a place is registered there.
theorem register_of_get? (h : t.entries.Nodup) (hq : t.get? id = some q) :
    t.register q = (id, t) := by
  have hmem : q ∈ t.entries := List.mem_of_getElem? hq
  have hplace := get?_register hmem
  unfold get? at hq hplace
  obtain ⟨hlt, -⟩ := List.getElem?_eq_some_iff.mp hq
  have hindex : id.index = (t.register q).1.index :=
    (List.getElem?_inj hlt h).mp (hq.trans hplace.symm)
  exact Prod.ext (congrArg SubqueryId.mk hindex.symm) (register_of_mem hmem)

end SubqueryTable

namespace Clause

-- The sub-query that a clause refers to.
def closure? : Clause → Option SubqueryId
  | .triple _ _ _ closure => closure
  | .hasValue _ _ closure => closure
  | .inCategory _ _ closure => closure
  | _ => none

end Clause

namespace Compiler

variable {c : Compiler} {keys : SortKeys}

-- The sub-query that a clause has to refer to, if it refers to one: the closure of what it names,
-- down to the depth that is set.
def closureOf? (c : Compiler) : Clause → Option Subquery
  | .triple _ p _ _ => (c.catalog.property? p).map (.property p ·.id c.settings.propertyDepth)
  | .hasValue _ p _ => (c.catalog.property? p).map (.property p ·.id c.settings.propertyDepth)
  | .inCategory _ ids _ => some (.categories ids c.settings.categoryDepth)
  | _ => none

def Resolves (c : Compiler) (t : SubqueryTable) (clause : Clause) : Prop :=
  ∀ id, clause.closure? = some id → ∃ q, c.closureOf? clause = some q ∧ t.get? id = some q

theorem Resolves.mono {t t' : SubqueryTable} {clause : Clause} (h : c.Resolves t clause)
    (hgrows : t.entries <+: t'.entries) : c.Resolves t' clause := by
  intro id hid
  obtain ⟨q, hq, hget⟩ := h id hid
  exact ⟨q, hq, SubqueryTable.get?_mono hgrows hget⟩

theorem resolves_of_closure?_eq_none {t : SubqueryTable} {clause : Clause}
    (h : clause.closure? = none) : c.Resolves t clause := by
  intro id hid
  rw [h] at hid
  cases hid

-- Clauses that stand for what a table has gained: the table only grew, they resolve in it, and they
-- refer to all that is new.
structure Gains (c : Compiler) (t : SubqueryTable) (clauses : List Clause) (t' : SubqueryTable) :
    Prop where
  grows : t.entries <+: t'.entries
  resolved : ∀ clause ∈ clauses, c.Resolves t' clause
  used : ∀ i, t.size ≤ i → i < t'.size → ∃ clause ∈ clauses, clause.closure? = some ⟨i⟩

theorem Gains.refl (t : SubqueryTable) : c.Gains t [] t where
  grows := List.prefix_refl _
  resolved := by simp
  used := by
    intro i hlo hhi
    omega

theorem Gains.trans {t t₁ t₂ : SubqueryTable} {first second : List Clause}
    (h₁ : c.Gains t first t₁) (h₂ : c.Gains t₁ second t₂) : c.Gains t (first ++ second) t₂ where
  grows := h₁.grows.trans h₂.grows
  resolved := by
    intro clause hclause
    rcases List.mem_append.mp hclause with hclause | hclause
    · exact (h₁.resolved clause hclause).mono h₂.grows
    · exact h₂.resolved clause hclause
  used := by
    intro i hlo hhi
    by_cases hi : i < t₁.size
    · obtain ⟨clause, hclause, hid⟩ := h₁.used i hlo hi
      exact ⟨clause, List.mem_append_left _ hclause, hid⟩
    · obtain ⟨clause, hclause, hid⟩ := h₂.used i (by omega) hhi
      exact ⟨clause, List.mem_append_right _ hclause, hid⟩

theorem Gains.of_closure?_eq_none {t : SubqueryTable} {clause : Clause}
    (h : clause.closure? = none) : c.Gains t [clause] t where
  grows := List.prefix_refl _
  resolved := by
    intro clause' hclause
    rw [List.mem_singleton.mp hclause]
    exact resolves_of_closure?_eq_none h
  used := by
    intro i hlo hhi
    omega

-- A clause with a closure stands for the sub-query that was registered for it.
theorem Gains.of_close {s s' : Progress} {depth : UInt32} {q : Subquery}
    {closure : Option SubqueryId} {clause : Clause} (h : s.close depth q = (closure, s'))
    (hclosure : clause.closure? = closure) (hq : c.closureOf? clause = some q) :
    c.Gains s.subqueries [clause] s'.subqueries := by
  rcases Progress.close_cases h with ⟨-, rfl, rfl⟩ | ⟨rfl, rfl⟩
  · exact Gains.of_closure?_eq_none hclosure
  · obtain ⟨hgrows, hget, hnew⟩ := s.subqueries.register_cases q
    refine ⟨hgrows, ?_, ?_⟩
    · intro clause' hclause id hid
      rw [List.mem_singleton.mp hclause] at hid ⊢
      rw [hclosure] at hid
      cases hid
      exact ⟨q, hq, hget⟩
    · intro i hlo hhi
      refine ⟨clause, by simp, ?_⟩
      rw [hclosure, hnew i hlo hhi]

@[simp] theorem closure?_link (join : Variable) (p : Property) (v : Variable)
    (closure : Option SubqueryId) : (link join p v closure).closure? = closure := by
  unfold link
  cases p.inverse <;> rfl

@[simp] theorem closureOf?_link (join : Variable) (p : Property) (v : Variable)
    (closure : Option SubqueryId) : c.closureOf? (link join p v closure) =
      (c.catalog.property? p).map (.property p ·.id c.settings.propertyDepth) := by
  unfold link
  cases p.inverse <;> rfl

theorem Gains.of_opening {join v : Variable} {p : Property} {info : PropertyInfo}
    {s s₁ : Progress} {clause : Clause} (hp : c.catalog.property? p = some info)
    (h : c.opening join p info s = ((clause, v), s₁)) :
    c.Gains s.subqueries [clause] s₁.subqueries := by
  obtain ⟨closure, s₀, hclose, ⟨-, -, rfl, rfl⟩ | ⟨-, -, rfl, rfl⟩⟩ := opening_cases h
  · have hgains : c.Gains s.subqueries [link join p v closure] s₀.subqueries :=
      Gains.of_close hclose (closure?_link ..) (by simp [hp])
    exact hgains
  · exact Gains.of_close hclose rfl (by simp [closureOf?, hp])

-- Where a condition is dropped, its sub-queries are forgotten, and the table is the one before it.
theorem trace_gains :
    c.Trace fun s clauses s' => c.Gains s.subqueries clauses s'.subqueries where
  refl s := Gains.refl _
  trans h₁ h₂ := h₁.trans h₂
  rollback := by
    intro s s' clauses h
    have htable : (s'.rollback s.subqueries.size).subqueries = s.subqueries :=
      SubqueryTable.truncate_grown h.grows
    rw [htable]
    exact Gains.refl _
  inNamespace s join number := Gains.of_closure?_eq_none rfl
  inCategory hclose := Gains.of_close hclose rfl rfl
  opening hp hopen := Gains.of_opening hp hopen

theorem Compiles.gains {path : List Page} {d : Description} {join : Variable}
    {target : Option SortTarget} {s s' : Progress} {condition : Condition}
    (h : Compiles c keys path d join target s condition s') :
    c.Gains s.subqueries condition.atoms s'.subqueries :=
  h.trace trace_gains

theorem Gains.eq_of_nil {t t' : SubqueryTable} (h : c.Gains t [] t') : t' = t := by
  have hsize : t'.size ≤ t.size := by
    by_contra hlt
    obtain ⟨clause, hclause, -⟩ := h.used t.size (Nat.le_refl _) (by omega)
    cases hclause
  exact congrArg SubqueryTable.mk (h.grows.eq_of_length_le hsize).symm

theorem BindsSortKey.closure?_eq_none {w : Condition} (h : c.BindsSortKey w) :
    ∀ clause ∈ w.atoms, clause.closure? = none := by
  obtain ⟨v, rfl⟩ := h
  simp [Condition.ofPattern, Condition.atoms, Clause.atoms, Clause.closure?]

-- The references of a condition to a table that was another one before it: the table has only
-- grown, each reference finds the closure of what its clause names, each new entry is referred to,
-- and there is none where everything or nothing fulfils the condition.
structure ExactClosures (c : Compiler) (t : SubqueryTable) (condition : Condition)
    (t' : SubqueryTable) : Prop where
  grows : t.entries <+: t'.entries
  resolved : ∀ clause ∈ condition.everyAtom, c.Resolves t' clause
  used : ∀ i, t.size ≤ i → i < t'.size →
    ∃ clause ∈ condition.everyAtom, clause.closure? = some ⟨i⟩
  unchanged : condition.isEverything = true ∨ condition.isNothing = true → t' = t

theorem Compiles.exactClosures {path : List Page} {d : Description} {join : Variable}
    {target : Option SortTarget} {s s' : Progress} {condition : Condition}
    (h : Compiles c keys path d join target s condition s') :
    c.ExactClosures s.subqueries condition s'.subqueries where
  grows := h.gains.grows
  resolved := by
    intro clause hclause
    rcases List.mem_append.mp hclause with hclause | hclause
    · exact h.gains.resolved clause hclause
    · obtain ⟨w, hw, hclause⟩ := List.mem_flatMap.mp hclause
      exact resolves_of_closure?_eq_none
        ((h.onlyBindsSortKeys w hw).closure?_eq_none clause hclause)
  used := by
    intro i hlo hhi
    obtain ⟨clause, hclause, hid⟩ := h.gains.used i hlo hhi
    exact ⟨clause, List.mem_append_left _ hclause, hid⟩
  unchanged := by
    intro hcondition
    have hgains := h.gains
    have hatoms : condition.atoms = [] := by
      rcases hcondition with he | hn
      · exact Condition.atoms_of_everything (Condition.form_eq_everything.mpr he)
      · exact Condition.atoms_of_nothing (Condition.form_eq_nothing.mpr hn)
    rw [hatoms] at hgains
    exact hgains.eq_of_nil

-- Whatever is compiled, and after whatever was compiled before it, its closures are exact; and the
-- closures that a whole query refers to are those it comes with.
theorem compile_closures_exact (c : Compiler) (hc : c.Standard) (d : Description) :
    (∀ (keys : SortKeys) (path : List Page) (join : Variable) (target : Option SortTarget)
      (w : Work), ∃ condition w',
        (c.compile keys path d join target).run.run w = (.ok condition, w') ∧
        c.ExactClosures w.subqueries condition w'.subqueries) ∧
    ∀ (s : Session) (sorts : List RequestedSort), s.compiler = c →
      ∃ q s', s.query d sorts = (.ok q, s') ∧ c.ExactClosures {} q.condition q.subqueries ∧
        ∀ id, (∃ clause ∈ q.condition.everyAtom, clause.closure? = some id) ↔
          id.index < q.subqueries.size := by
  constructor
  · intro keys path join target w
    obtain ⟨condition, w', hrun, h⟩ := compile_run hc path d join target w
    exact ⟨condition, w', hrun, h.exactClosures⟩
  · intro s sorts hs
    subst hs
    obtain ⟨condition, p, s', h, hquery⟩ := s.query_run hc d sorts
    refine ⟨_, s', hquery, h.exactClosures, ?_⟩
    intro id
    constructor
    · intro hrefers
      obtain ⟨clause, hclause, hid⟩ := hrefers
      obtain ⟨q, -, hget⟩ := h.exactClosures.resolved clause hclause id hid
      exact (List.getElem?_eq_some_iff.mp hget).1
    · intro hlt
      exact h.exactClosures.used id.index (Nat.zero_le _) hlt

theorem compile_closures_exact_cities :
    let catalog := (({} : Catalog).addCategory ⟨"Cities", 14⟩ 5).addProperty "Located in" .page
    let c : Compiler := { catalog }
    let d : Description := .conjunction [.inCategory [⟨"Cities", 14⟩],
      .someProperty { key := "Located in" } (.inCategory [⟨"Cities", 14⟩])]
    c.Standard ∧
    (∃ condition w', (c.compile ∅ [] d ⟨"result"⟩ none).run.run {} = (.ok condition, w') ∧
      c.ExactClosures {} condition w'.subqueries) ∧
    ∃ q s', ({ compiler := c } : Session).query d [] = (.ok q, s') ∧
      c.ExactClosures {} q.condition q.subqueries ∧
      ∀ id, (∃ clause ∈ q.condition.everyAtom, clause.closure? = some id) ↔
        id.index < q.subqueries.size := by
  intro _ c d
  have hc : c.Standard := standard_of_builders rfl
  obtain ⟨hcompile, hquery⟩ := compile_closures_exact c hc d
  exact ⟨hc, hcompile ∅ [] ⟨"result"⟩ none {}, hquery { compiler := c } [] rfl⟩

end Compiler

end WikiQuery
