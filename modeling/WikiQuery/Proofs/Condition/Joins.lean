import WikiQuery.Proofs.Condition.Scope

namespace WikiQuery

theorem flatMap_subset {α β : Type} {l : List α} {f : α → List β} {m : List β}
    (h : ∀ a ∈ l, f a ⊆ m) : l.flatMap f ⊆ m := by
  intro b hb
  obtain ⟨a, ha, hb⟩ := List.mem_flatMap.mp hb
  exact h a ha hb

def Term.variables (t : Term) : List Variable := t.variable?.toList

namespace Clause

-- The variables that a clause joins with other clauses, at any depth. A sort key is bound for the
-- sake of the order only, so that it takes no part in this.
def joins : Clause → List Variable
  | .triple s _ o _ => s.variables ++ o.variables
  | .hasValue v _ _ => [v]
  | .inNamespace v _ => [v]
  | .inCategory v _ _ => [v]
  | .sortKey _ _ => []
  | .filter f => f.flatMap Test.variables
  | .union groups => groups.flatMap fun group => group.flatMap joins
decreasing_by exact sizeOf_lt_union ‹_› ‹_›

theorem Leads.joins_subset {s o : Term} {p : Property} {closure : Option SubqueryId}
    {v w : Variable} (h : (triple s p o closure).Leads v w) :
    (triple s p o closure).joins ⊆ [v, w] := by
  rw [joins]
  rcases leads_iff.mp h with ⟨-, rfl, rfl⟩ | ⟨-, rfl, rfl⟩ <;>
    simp [Term.variables, Term.variable?]

theorem joins_subset_of {p : Pattern} {vs : List Variable}
    (h : ∀ clause ∈ p, ∀ scope : List Variable, scope ⊆ vs → introduced clause.atoms ⊆ vs →
      Scoped scope clause → clause.joins ⊆ vs)
    {scope : List Variable} (hscope : scope ⊆ vs) (hnew : introduced p.atoms ⊆ vs)
    (hp : ScopedAll scope p) : p.flatMap joins ⊆ vs := by
  induction p generalizing scope with
  | nil => simp
  | cons clause rest ih =>
    rw [Pattern.atoms_cons, introduced_append, List.append_subset] at hnew
    have hbehind : scope ++ clause.introduces?.toList ⊆ vs :=
      List.append_subset.mpr ⟨hscope, List.Subset.trans (introduced_atoms_subset clause) hnew.1⟩
    rw [List.flatMap_cons]
    exact List.append_subset.mpr ⟨h clause (by simp) scope hscope hnew.1 hp.1,
      ih (fun clause hclause => h clause (List.mem_cons_of_mem _ hclause)) hbehind hnew.2 hp.2⟩

-- Clauses in scope join the variables of their scope and those that they introduce.
theorem Scoped.joins_subset {clause : Clause} {scope vs : List Variable}
    (h : Scoped scope clause) (hscope : scope ⊆ vs) (hnew : introduced clause.atoms ⊆ vs) :
    clause.joins ⊆ vs := by
  induction clause using nested_induction generalizing scope with
  | triple s p o closure =>
    obtain ⟨v, w, hv, hleads⟩ := h
    have hw : w ∈ vs := hnew (introduced_atoms_subset _ (by simp [hleads.introduces?]))
    refine List.Subset.trans hleads.joins_subset ?_
    simpa using ⟨hscope hv, hw⟩
  | hasValue v p closure => simpa [joins] using hscope h
  | inNamespace v number => simpa [joins] using hscope h
  | inCategory v ids closure => simpa [joins] using hscope h
  | sortKey v key => simp [joins]
  | filter f =>
    rw [joins]
    exact flatMap_subset fun test htest => List.Subset.trans (h test htest) hscope
  | union groups ih =>
    rw [joins]
    rw [Pattern.atoms_union] at hnew
    refine flatMap_subset fun group hgroup => ?_
    have hgroups := List.Subset.trans (introduced_sublist_flatMap Pattern.atoms hgroup).subset hnew
    exact joins_subset_of
      (fun clause hclause _ hscope hnew h => ih group hgroup clause hclause h hscope hnew)
      hscope hgroups (scopedEach_iff.mp h group hgroup)

theorem ScopedAll.joins_subset {p : Pattern} {scope vs : List Variable} (h : ScopedAll scope p)
    (hscope : scope ⊆ vs) (hnew : introduced p.atoms ⊆ vs) : p.flatMap joins ⊆ vs :=
  joins_subset_of (fun _ _ _ hscope hnew h => h.joins_subset hscope hnew) hscope hnew h

end Clause

namespace Condition

-- The variables that a condition joins, at any depth, without what goes along with it.
def joins : Condition → List Variable
  | ⟨.pattern p, _⟩ => p.flatMap Clause.joins
  | ⟨.singleton _ p, _⟩ => p.flatMap Clause.joins
  | ⟨.filter f, _⟩ => f.flatMap Test.variables
  | ⟨.alternatives branches, _⟩ => branches.flatMap joins
  | ⟨.everything, _⟩ => []
  | ⟨.nothing, _⟩ => []

-- The variables that are joined anywhere in a condition.
def everyJoin (c : Condition) : List Variable := (c :: c.asides).flatMap joins

-- The variables of pages whose sort keys go along with a condition, and the variables that these
-- are bound to.
def sorts (c : Condition) : List (Variable × Variable) :=
  (c.asides.flatMap atoms).filterMap fun
    | .sortKey v key => some (v, key)
    | _ => none

theorem joins_eq_of_form {c d : Condition} (h : c.form = d.form) : c.joins = d.joins := by
  obtain ⟨form, a⟩ := c
  obtain ⟨form', b⟩ := d
  cases h
  cases form <;> simp only [joins]

theorem joins_of_pattern {c : Condition} {p : Pattern} (h : c.form = .pattern p) :
    c.joins = p.flatMap Clause.joins := by
  rw [joins_eq_of_form (d := ⟨.pattern p, c.attachments⟩) h, joins]

theorem joins_subset_everyJoin (c : Condition) : c.joins ⊆ c.everyJoin := by
  rw [everyJoin, List.flatMap_cons]
  exact List.subset_append_left _ _

theorem Scoped.joins_subset {c : Condition} {scope vs : List Variable} (h : c.Scoped scope)
    (hscope : scope ⊆ vs) (hnew : c.introduced ⊆ vs) : c.joins ⊆ vs := by
  induction c using nested_induction with
  | node form a ih _ =>
    cases form with
    | everything => simp [joins]
    | nothing => simp [joins]
    | pattern p =>
      simp only [Scoped] at h
      rw [introduced, atoms_of_pattern rfl] at hnew
      rw [joins]
      exact h.joins_subset hscope hnew
    | filter f =>
      simp only [Scoped] at h
      rw [joins]
      exact flatMap_subset fun test htest => List.Subset.trans (h test htest) hscope
    | singleton r p =>
      simp only [Scoped] at h
      rw [introduced, atoms_of_singleton rfl] at hnew
      rw [joins]
      exact h.joins_subset hscope hnew
    | alternatives branches =>
      rw [joins]
      refine flatMap_subset fun b hb => ?_
      have hbranch : b ∈ (mk (.alternatives branches) a).form.branches := hb
      exact ih b hb (h.branch hbranch)
        (List.Subset.trans (introduced_branch hbranch).subset hnew)

theorem mem_sorts {c : Condition} {v key : Variable} :
    (v, key) ∈ c.sorts ↔ ∃ w ∈ c.asides, Clause.sortKey v key ∈ w.atoms := by
  unfold sorts
  rw [List.mem_filterMap]
  constructor
  · rintro ⟨clause, hclause, heq⟩
    obtain ⟨w, hw, hmem⟩ := List.mem_flatMap.mp hclause
    cases clause <;> cases heq
    exact ⟨w, hw, hmem⟩
  · rintro ⟨w, hw, hmem⟩
    exact ⟨_, List.mem_flatMap.mpr ⟨w, hw, hmem⟩, rfl⟩

theorem mem_sorts_of_weak {c : Condition} {v key : Variable}
    (h : ofPattern [.sortKey v key] ∈ c.attachments.weak) : (v, key) ∈ c.sorts := by
  refine mem_sorts.mpr ⟨ofPattern [.sortKey v key], ?_, ?_⟩
  · rw [asides_eq]
    exact List.mem_append_left _ (List.mem_flatMap.mpr ⟨_, h, by simp⟩)
  · simp [ofPattern, atoms, Clause.atoms]

end Condition

end WikiQuery
