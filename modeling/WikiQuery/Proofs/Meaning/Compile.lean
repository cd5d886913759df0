import WikiQuery.Proofs.Meaning.Faithful

namespace WikiQuery

universe u

variable {E : Type u} {I : Interpretation E}

namespace Compiler

variable {c : Compiler} {keys : SortKeys} {path : List Page} {join : Variable}
  {target : Option SortTarget} {s s' : Progress}

section Chains

variable {parts : List Description} {conditions : List Condition}

theorem faithful_conjunction {merged : Merge}
    (chain : Chain (c.FaithfulStep I keys path join target) parts s conditions s')
    (hmerge : Merge.all? join conditions = some merged) :
    c.Faithful I path (.conjunction parts) join s merged.finish s' where
  sound t σ ht hholds := by
    have hall := (Merge.holds_all? hmerge).mp (Merge.holds_finish.mp hholds)
    refine meets_conjunction.mpr ?_
    intro part hpart
    obtain ⟨condition, hcondition, hfaithful⟩ := (faithful_chain chain).2.1 part hpart
    exact hfaithful.sound t σ ht (hall condition hcondition)
  complete t σ ht hjoin hmeets := by
    obtain ⟨τ, hagrees, hholds⟩ := complete_chain chain ht hjoin (meets_conjunction.mp hmeets)
    exact ⟨τ, hagrees, Merge.holds_finish.mpr ((Merge.holds_all? hmerge).mpr hholds)⟩

-- Where the conditions of some parts do not go together with that of another one, no entity meets
-- all of them: it would have bindings under which these conditions hold all at once.
theorem not_meets_of_clash {done rest : List Description} {part : Description} {s₁ : Progress}
    {condition : Condition} {merged : Merge}
    (chain : Chain (c.FaithfulStep I keys path join target) done s conditions s₁)
    (hmerge : Merge.all? join conditions = some merged)
    (hpart : c.FaithfulStep I keys path join target part s₁ condition s')
    (hclash : merged.absorb? join condition = none)
    (hjoin : ∀ k, s.counter < k → join ≠ c.numbered k) (σ : Variable → E) :
    ¬ c.Meets I path (.conjunction (done ++ part :: rest)) (σ join) := by
  intro hmeets
  have hupTo : ∀ d ∈ done ++ [part], c.Meets I path d (σ join) := by
    intro d hd
    apply meets_conjunction.mp hmeets d
    simp only [List.mem_append, List.mem_cons, List.not_mem_nil, or_false] at hd ⊢
    tauto
  have hlast := chain.append (.cons hpart .nil)
  obtain ⟨τ, -, hholds⟩ := complete_chain hlast (List.prefix_refl _) hjoin hupTo
  obtain ⟨hconditions, hcondition⟩ := List.forall_mem_append.mp hholds
  have hmerged := (Merge.holds_all? hmerge).mpr hconditions
  exact Merge.not_holds_of_absorb?_eq_none hclash hmerged (hcondition condition (by simp))

theorem faithful_disjunction
    (chain : Chain (c.FaithfulStep I keys path join target) parts s conditions s') :
    c.Faithful I path (.disjunction parts) join s
      (alternativesCondition (conditions.filter (!·.isNothing))) s' where
  sound t σ ht hholds := by
    obtain ⟨condition, hcondition, hholds⟩ := holds_alternativesCondition.mp hholds
    obtain ⟨part, hpart, hfaithful⟩ :=
      (faithful_chain chain).2.2 condition (List.mem_filter.mp hcondition).1
    exact meets_disjunction.mpr ⟨part, hpart, hfaithful.sound t σ ht hholds⟩
  complete t σ ht hjoin hmeets := by
    obtain ⟨part, hpart, hmeets⟩ := meets_disjunction.mp hmeets
    obtain ⟨condition, hcondition, hfaithful⟩ := (faithful_chain chain).2.1 part hpart
    obtain ⟨τ, hagrees, hholds⟩ := hfaithful.complete t σ ht hjoin hmeets
    refine ⟨τ, hagrees, holds_alternativesCondition.mpr ⟨condition, ?_, hholds⟩⟩
    cases hnothing : condition.isNothing with
    | true =>
      have hform := Condition.form_eq_nothing.mpr hnothing
      exact absurd hholds (Condition.not_holds_of_nothing hform)
    | false => simp [hcondition, hnothing]

end Chains

-- Compiling keeps the meaning of a description. Of the rules that drop a condition, those that end
-- with nothing drop one that nothing fulfils, and the other one a condition that everything does.
theorem Compiles.faithful {d : Description} {condition : Condition}
    (h : Compiles c keys path d join target s condition s') :
    c.Faithful I path d join s condition s' := by
  induction h with
  | thing => exact .of_always (form_everything ..) fun _ => meets_thing
  | inNamespace number =>
    refine .of_iff fun t σ _ => ?_
    rw [Condition.holds_of_pattern (form_namespaceCondition ..), meets_inNamespace]
    simp [Clause.Holds]
  | noCategory hnone => exact .of_never fun _ σ hmeets => (meets_inCategory.mp hmeets).1 hnone
  | inCategory hsome hclose =>
    refine .of_iff fun t σ ht => ?_
    rw [Condition.holds_of_pattern (form_categoryCondition ..), Pattern.holds_cons,
      and_iff_left Pattern.holds_nil, holds_inCategory hclose ht, meets_inCategory,
      and_iff_right hsome]
  | noConcept hnone => exact .of_never fun _ σ => not_meets_concept hnone
  | concept hsome _ ih => exact ih.of_meets_iff fun e => meets_concept hsome
  | value p comparator x =>
    exact .of_iff fun t σ _ => holds_comparedCondition.trans meets_value.symm
  | noProperty hnone => exact .of_never fun _ σ => not_meets_someProperty hnone
  | someProperty hp hopen hinner hgroup ih =>
    refine ⟨fun t σ ht hholds => ?_, fun t σ ht hjoin hmeets => ?_⟩
    · rw [Condition.holds_of_pattern (form_propertyCondition ..), Pattern.holds_cons,
        Condition.holds_toPattern? hgroup] at hholds
      exact sound_opening hp hopen (hinner.le.subqueries.trans ht) hholds.1
        (ih.sound t σ ht hholds.2)
    · obtain ⟨τ, hagrees, hholds⟩ := complete_opening hp hopen ⟨hinner, ih⟩ ht hjoin hmeets
      refine ⟨τ, hagrees, ?_⟩
      rw [Condition.holds_of_pattern (form_propertyCondition ..), Pattern.holds_cons,
        Condition.holds_toPattern? hgroup]
      exact hholds
  | emptyProperty hp hopen hinner hnone ih =>
    refine .of_never fun hjoin σ hmeets => ?_
    obtain ⟨τ, -, -, hholds⟩ :=
      complete_opening hp hopen ⟨hinner, ih⟩ (List.prefix_refl _) hjoin hmeets
    exact Condition.not_holds_of_nothing (Condition.toPattern?_eq_none.mp hnone) hholds
  | conjunctionNone =>
    exact .of_always (form_everything ..) fun _ => meets_conjunction.mpr (by simp)
  | conjunctionOne _ ih => exact ih.of_meets_iff fun e => by simp [meets_conjunction]
  | conjunction _ hsteps chain hmerge ih =>
    have hchain := chain_faithfulSteps hsteps ih chain
    exact (faithful_conjunction hchain hmerge).congr (form_attachRequested ..)
  | clash _ hsteps chain hmerge hpart hclash ih ihpart =>
    have hchain := chain_faithfulSteps hsteps ih chain
    exact .of_never (not_meets_of_clash hchain hmerge ⟨hpart, ihpart⟩ hclash)
  | disjunction hsteps chain _ ih =>
    have hchain := chain_faithfulSteps hsteps ih chain
    exact (faithful_disjunction hchain).congr (form_attachRequested ..)
  | @saturation _ _ _ _ _ s' _ part _ _ condition _ _ _ _ _ heverything _ ihpart =>
    refine .of_always (form_everything ..) fun σ => meets_disjunction.mpr ⟨part, by simp, ?_⟩
    have hform := Condition.form_eq_everything.mpr heverything
    exact ihpart.sound s'.subqueries σ (List.prefix_refl _) (Condition.holds_of_everything hform)

end Compiler

-- The entities that a query finds are those that meet its description.
theorem Session.query_selects_iff_meets (s : Session) (hc : s.compiler.Standard)
    (hsettings : s.compiler.settings.fault? = none) (d : Description)
    (sorts : List RequestedSort) :
    ∃ q s', s.query d sorts = (.ok q, s') ∧
      ∀ (E : Type u) (I : Interpretation E) (e : E),
        q.Selects I e ↔ s.compiler.Meets I [] d e := by
  obtain ⟨condition, p, s', h, hquery⟩ := s.query_run hc d sorts
  refine ⟨_, s', hquery, ?_⟩
  intro E I e
  have hfaithful : s.compiler.Faithful I [] d _ {} condition p := h.faithful
  constructor
  · intro hselects
    obtain ⟨σ, rfl, hholds⟩ := hselects
    exact hfaithful.sound p.subqueries σ (List.prefix_refl _) hholds
  · intro hmeets
    have hresult := Compiler.result_ne_numbered hsettings
    obtain ⟨τ, hagrees, hholds⟩ := hfaithful.complete p.subqueries (fun _ => e)
      (List.prefix_refl _) (fun k _ => hresult k) hmeets
    exact ⟨τ, hagrees _ fun k _ _ => hresult k, hholds⟩

-- A world of names in which Spain borders France and nothing else is known.
def Interpretation.spainBordersFrance : Interpretation String where
  denotes := Resource.identity
  space _ := 0
  member _ _ _ := False
  related p _ e e' :=
    p.key = "Borders" ∧ e = "Spain" ∧ e' = (Resource.page ⟨"France", 0⟩).identity
  valued _ _ _ := False
  sortedBy _ _ := False
  compares left relation right := match left, relation, right with
    | .entity e, .eq, .value (.page r) => e = r.identity
    | _, _, _ => False
  fits _ _ _ := False
  denotes_eq_iff _ _ := Iff.rfl
  compares_page _ _ := Iff.rfl

theorem Session.query_selects_iff_meets_spain :
    let s : Session := { compiler := { catalog := ({} : Catalog).addProperty "Borders" .page } }
    let borders : Property := { key := "Borders" }
    let d : Description := .someProperty borders (.value borders .eq (.page (.page ⟨"France", 0⟩)))
    s.compiler.Standard ∧ s.compiler.settings.fault? = none ∧
      ∃ q s', s.query d [] = (.ok q, s') ∧
        q.Selects Interpretation.spainBordersFrance "Spain" ∧
        ¬ q.Selects Interpretation.spainBordersFrance "Italy" := by
  intro s borders d
  have hc : s.compiler.Standard := Compiler.standard_of_builders rfl
  have hsettings : s.compiler.settings.fault? = none := by decide +kernel
  obtain ⟨q, s', hquery, hselects⟩ := query_selects_iff_meets s hc hsettings d []
  refine ⟨hc, hsettings, q, s', hquery, ?_⟩
  have hmeets : ∀ e, q.Selects Interpretation.spainBordersFrance e ↔ e = "Spain" := by
    intro e
    rw [hselects, Compiler.meets_someProperty_page rfl rfl]
    simp [Compiler.meets_value, Compiler.MeetsValue, Interpretation.spainBordersFrance, borders]
  exact ⟨(hmeets _).mpr rfl, fun h => absurd ((hmeets _).mp h) (by decide)⟩

end WikiQuery
