import WikiQuery.Proofs.Meaning.Interpretation

namespace WikiQuery

universe u

variable {E : Type u} {I : Interpretation E} {t : SubqueryTable} {σ τ : Variable → E}

theorem Operand.datum_of_agree {o : Operand} (h : ∀ v ∈ o.variables, σ v = τ v) :
    o.datum σ = o.datum τ := by
  cases o with
  | entity v => rw [datum, datum, h v (List.mem_singleton_self v)]
  | field name v => rw [datum, datum, h v (List.mem_singleton_self v)]
  | value x => rfl
  | text s => rfl

theorem Test.holds_of_agree {test : Test} (h : ∀ v ∈ test.variables, σ v = τ v) :
    test.Holds I σ ↔ test.Holds I τ := by
  cases test with
  | compare left relation right =>
    obtain ⟨hleft, hright⟩ := List.forall_mem_append.mp h
    rw [Holds, Holds, Operand.datum_of_agree hleft, Operand.datum_of_agree hright]
  | regex operand pattern negated => rw [Holds, Holds, Operand.datum_of_agree h]

theorem Filter.holds_of_agree {f : Filter} {scope : List Variable}
    (hscoped : ∀ test ∈ f, test.variables ⊆ scope) (h : ∀ v ∈ scope, σ v = τ v) :
    Filter.Holds I σ f ↔ Filter.Holds I τ f := by
  have htest : ∀ test ∈ f, (test.Holds I σ ↔ test.Holds I τ) := by
    intro test htest
    exact Test.holds_of_agree fun v hv => h v (hscoped test htest hv)
  exact forall₂_congr htest

theorem Term.entityOf_of_leads {s o : Term} {p : Property} {closure : Option SubqueryId}
    {v w : Variable} (h : (Clause.triple s p o closure).Leads v w) (hv : σ v = τ v)
    (hw : σ w = τ w) : s.entityOf I σ = s.entityOf I τ ∧ o.entityOf I σ = o.entityOf I τ := by
  rcases Clause.leads_iff.mp h with ⟨-, rfl, rfl⟩ | ⟨-, rfl, rfl⟩
  · exact ⟨hw, hv⟩
  · exact ⟨hv, hw⟩

theorem Pattern.holds_of_agree_of {p : Pattern} {scope : List Variable}
    (ih : ∀ clause ∈ p, ∀ scope, Clause.Scoped scope clause →
      (∀ v ∈ scope ++ Clause.introduced clause.atoms, σ v = τ v) →
      (clause.Holds I t σ ↔ clause.Holds I t τ))
    (hscoped : Clause.ScopedAll scope p)
    (h : ∀ v ∈ scope ++ Clause.introduced p.atoms, σ v = τ v) :
    Pattern.Holds I t σ p ↔ Pattern.Holds I t τ p := by
  induction p generalizing scope with
  | nil => simp
  | cons clause rest ihrest =>
    rw [Pattern.atoms_cons, Clause.introduced_append, ← List.append_assoc] at h
    obtain ⟨hclause, hrest⟩ := List.forall_mem_append.mp h
    -- behind the clause, what it introduces is in scope
    have hscope : ∀ v ∈ scope ++ clause.introduces?.toList, σ v = τ v := by
      intro v hv
      exact hclause v (Clause.append_subset_append (List.Subset.refl _)
        (Clause.introduced_atoms_subset clause) hv)
    have hhead := ih clause (by simp) scope hscoped.1 hclause
    have htail := ihrest (fun c hc => ih c (List.mem_cons_of_mem _ hc)) hscoped.2
      (List.forall_mem_append.mpr ⟨hscope, hrest⟩)
    rw [Pattern.holds_cons, Pattern.holds_cons, hhead, htail]

theorem Clause.holds_of_agree {clause : Clause} {scope : List Variable}
    (hscoped : Clause.Scoped scope clause)
    (h : ∀ v ∈ scope ++ introduced clause.atoms, σ v = τ v) :
    clause.Holds I t σ ↔ clause.Holds I t τ := by
  have hscope : ∀ v ∈ scope, σ v = τ v := (List.forall_mem_append.mp h).1
  induction clause using nested_induction generalizing scope with
  | triple s p o closure =>
    obtain ⟨v, w, hv, hleads⟩ := hscoped
    have hw : σ w = τ w := by
      apply h w
      simp [atoms, introduced, hleads.introduces?]
    obtain ⟨hs, ho⟩ := Term.entityOf_of_leads (I := I) hleads (hscope v hv) hw
    simp only [Holds, hs, ho]
  | hasValue v p closure => simp only [Holds, hscope v hscoped]
  | inNamespace v number => simp only [Holds, hscope v hscoped]
  | inCategory v ids closure => simp only [Holds, hscope v hscoped]
  | sortKey v key => simp only [Holds, hscope v hscoped.1, hscope key hscoped.2]
  | filter f =>
    simp only [Holds]
    exact Filter.holds_of_agree hscoped hscope
  | union groups ih =>
    rw [Pattern.holds_union, Pattern.holds_union]
    refine exists_congr fun group => and_congr_right fun hgroup => ?_
    refine Pattern.holds_of_agree_of ?_ (scopedEach_iff.mp hscoped group hgroup) ?_
    · intro clause hclause scope hscoped h
      exact ih group hgroup clause hclause hscoped h (List.forall_mem_append.mp h).1
    · intro v hv
      apply h v
      rw [Pattern.atoms_union]
      exact append_subset_append (List.Subset.refl _)
        (introduced_sublist_flatMap Pattern.atoms hgroup).subset hv

theorem Pattern.holds_of_agree {p : Pattern} {scope : List Variable}
    (hscoped : Clause.ScopedAll scope p)
    (h : ∀ v ∈ scope ++ Clause.introduced p.atoms, σ v = τ v) :
    Pattern.Holds I t σ p ↔ Pattern.Holds I t τ p :=
  Pattern.holds_of_agree_of (fun _ _ _ => Clause.holds_of_agree) hscoped h

-- Whether a condition holds depends on what is in scope and on what the condition introduces.
theorem Condition.holds_of_agree {c : Condition} {join : Variable} {scope : List Variable}
    (hjoin : join ∈ scope) (hscoped : c.Scoped scope)
    (h : ∀ v ∈ scope ++ c.introduced, σ v = τ v) :
    c.Holds I t σ join ↔ c.Holds I t τ join := by
  have hscope : ∀ v ∈ scope, σ v = τ v := (List.forall_mem_append.mp h).1
  induction c using nested_induction with
  | node form a ih _ =>
    cases form with
    | everything => simp [Holds]
    | nothing => simp [Holds]
    | pattern p =>
      rw [introduced, atoms_of_pattern rfl] at h
      rw [holds_of_pattern rfl, holds_of_pattern rfl]
      exact Pattern.holds_of_agree ((scoped_of_pattern rfl).mp hscoped) h
    | filter f =>
      rw [holds_of_filter rfl, holds_of_filter rfl]
      exact Filter.holds_of_agree ((scoped_of_filter rfl).mp hscoped) hscope
    | singleton r p =>
      rw [introduced, atoms_of_singleton rfl] at h
      rw [holds_of_singleton rfl, holds_of_singleton rfl, hscope join hjoin,
        Pattern.holds_of_agree ((scoped_of_singleton rfl).mp hscoped) h]
    | alternatives branches =>
      rw [holds_of_alternatives rfl, holds_of_alternatives rfl]
      refine exists_congr fun b => and_congr_right fun hb => ?_
      refine ih b hb (hscoped.branch hb) ?_
      intro v hv
      exact h v (Clause.append_subset_append (List.Subset.refl _) (introduced_branch hb).subset hv)

end WikiQuery
