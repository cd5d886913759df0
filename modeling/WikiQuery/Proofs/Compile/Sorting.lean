import WikiQuery.Proofs.Compile.Normal
import WikiQuery.Proofs.Compile.Scope
import WikiQuery.Proofs.Compile.Sorts

namespace WikiQuery

namespace Compiler

variable {c : Compiler} {keys : SortKeys} {join : Variable} {target : Option SortTarget}
  {datatype : Datatype} {condition : Condition}

theorem sorts_attachSort (hcondition : condition.isNothing = false)
    (h : c.Sorts keys condition.Gives condition.attachments) :
    c.Sorts keys ((c.attachSort keys join target datatype condition).Offers join target)
      (c.attachSort keys join target datatype condition).attachments := by
  refine (h.attachSort hcondition).congr ?_ rfl rfl
  intro key v
  unfold Condition.Offers
  rw [Condition.gives_congr (form_attachSort ..)]

theorem sorts_leaf (hcondition : condition.isNothing = false)
    (hatoms : ∀ clause ∈ condition.atoms, clause.key? = none)
    (hweak : condition.attachments.weak = [])
    (hsorts : condition.attachments.sortVariables = ∅) :
    c.Sorts keys ((c.attachSort keys join target datatype condition).Offers join target)
      (c.attachSort keys join target datatype condition).attachments :=
  sorts_attachSort hcondition (.empty hweak hsorts (Condition.not_gives hatoms))

theorem key?_opening {v : Variable} {p : Property} {info : PropertyInfo} {s s₁ : Progress}
    {clause : Clause} (h : c.opening join p info s = ((clause, v), s₁)) :
    clause.key? = some p.key ∧ clause.value? = some v := by
  obtain ⟨closure, s₀, -, ⟨-, -, rfl, -⟩ | ⟨-, rfl, rfl, -⟩⟩ := opening_cases h
  · obtain ⟨s, o, hlink, hleads⟩ := link_eq_triple join p v closure
    rw [hlink]
    exact ⟨rfl, hleads.introduces?⟩
  · exact ⟨rfl, rfl⟩

theorem atoms_property {v : Variable} {p : Property} {info : PropertyInfo} {s s₁ : Progress}
    {clause : Clause} {inner : Condition} {group : Pattern}
    (hopen : c.opening join p info s = ((clause, v), s₁)) (hgroup : inner.toPattern? v = some group)
    (hform : condition.form = .pattern (clause :: group)) :
    condition.atoms = clause :: inner.atoms := by
  rw [Condition.atoms_of_pattern hform, Pattern.atoms_cons, atoms_opening hopen,
    Condition.atoms_toPattern? hgroup, List.singleton_append]

-- What the inner condition of a property takes for a request is said by the clause in front of it.
theorem sorts_property {v : Variable} {p : Property} {info : PropertyInfo} {s s₁ : Progress}
    {clause : Clause} {inner : Condition} {group : Pattern}
    (hopen : c.opening join p info s = ((clause, v), s₁)) (hgroup : inner.toPattern? v = some group)
    (h : c.Sorts keys (inner.Offers v (some ⟨p.key, info.datatype⟩)) inner.attachments)
    (hform : condition.form = .pattern (clause :: group))
    (hweak : condition.attachments.weak = inner.attachments.weak)
    (hsorts : condition.attachments.sortVariables = inner.attachments.sortVariables) :
    c.Sorts keys condition.Gives condition.attachments := by
  obtain ⟨hkey, hvalue⟩ := key?_opening hopen
  refine h.congr ?_ hweak hsorts
  intro key w
  unfold Condition.Offers Condition.Gives
  rw [atoms_property hopen hgroup hform]
  simp [hkey, hvalue, eq_comm]

-- Merged conditions offer what any of them offers.
theorem sorts_finish {conditions : List Condition} {m : Merge}
    (hmerge : Merge.all? join conditions = some m)
    (h : ∀ b ∈ conditions, b.isNothing = false → c.Sorts keys (b.Offers join none) b.attachments) :
    c.Sorts keys m.finish.Gives m.finish.attachments ∧ m.finish.attachments.weak.Nodup := by
  have hempty : c.Sorts keys (fun _ _ => False) {} := .empty rfl rfl (by simp)
  have hparts : ∀ b ∈ conditions, c.Sorts keys (b.Offers join none) b.attachments := by
    intro b hb
    exact h b hb (Merge.isNothing_of_all? hmerge b hb)
  have hattachments : m.finish.attachments =
      conditions.foldl (fun a b => a.merge b.attachments) {} := Merge.attachments_all? hmerge
  rw [hattachments]
  refine ⟨(hempty.foldl hparts).congr ?_ rfl rfl, hempty.nodup_foldl hparts List.nodup_nil⟩
  intro key v
  rw [Condition.gives_flatMap ((Merge.atoms_finish m).trans (Merge.atoms_all? hmerge))]
  simp [Condition.Offers]

theorem sorts_found {conditions : List Condition}
    (h : ∀ b ∈ conditions, b.isNothing = false →
      c.Sorts keys (b.Offers join target) b.attachments) :
    ∀ b ∈ conditions.filter (!·.isNothing), c.Sorts keys (b.Offers join target) b.attachments := by
  intro b hb
  obtain ⟨hb, hfound⟩ := List.mem_filter.mp hb
  exact h b hb (by simpa using hfound)

theorem sorts_alternatives {branches : List Condition} (hbranches : branches ≠ [])
    (h : ∀ b ∈ branches, c.Sorts keys (b.Offers join target) b.attachments) :
    c.Sorts keys ((alternativesCondition branches).Offers join target)
      (alternativesCondition branches).attachments := by
  have hempty : c.Sorts keys (fun _ _ => False) {} := .empty rfl rfl (by simp)
  have hoffers : ∀ key v, (∃ b ∈ branches, b.Offers join target key v) ↔
      (alternativesCondition branches).Offers join target key v := by
    intro key v
    obtain ⟨b, hb⟩ := List.exists_mem_of_ne_nil branches hbranches
    unfold Condition.Offers
    rw [Condition.gives_flatMap (atoms_alternativesCondition branches)]
    constructor
    · rintro ⟨b, hb, htarget | hgives⟩
      · exact .inl htarget
      · exact .inr ⟨b, hb, hgives⟩
    · rintro (htarget | ⟨b, hb, hgives⟩)
      · exact ⟨b, hb, .inl htarget⟩
      · exact ⟨b, hb, .inr hgives⟩
  rcases branches with _ | ⟨first, _ | ⟨second, rest⟩⟩
  · exact absurd rfl hbranches
  · exact h first (by simp)
  · exact (hempty.foldl h).congr (by simpa using hoffers) rfl rfl

-- A sort that is offered is recorded, so that the same one again has no effect.
theorem attachSort_again (hcondition : condition.isNothing = false)
    (h : c.Sorts keys (condition.Offers join target) condition.attachments) :
    c.attachSort keys join target datatype condition = condition := by
  rcases c.attachSort_cases keys join target datatype hcondition with
    ⟨heq, -⟩ | ⟨t, rfl, hkey, hnew, -⟩
  · exact heq
  · have hrecorded := (h.recorded t.key).mpr ⟨hkey, join, .inl ⟨t, rfl, rfl, rfl⟩⟩
    rw [hrecorded] at hnew
    cases hnew

theorem attachRequested_alternatives {branches : List Condition}
    (h : ∀ b ∈ branches, c.Sorts keys (b.Offers join target) b.attachments) :
    c.attachRequested keys join target (alternativesCondition branches) =
      alternativesCondition branches := by
  unfold attachRequested
  cases hnothing : (alternativesCondition branches).isNothing with
  | true =>
    unfold attachSort
    cases target <;> simp [hnothing]
  | false =>
    have hbranches : branches ≠ [] := by
      rintro rfl
      cases hnothing
    exact attachSort_again hnothing (sorts_alternatives hbranches h)

-- What is compiled can be sorted by its own variable, as it is asked to, and by the values of the
-- properties that it mentions.
theorem Compiles.sorts {path : List Page} {d : Description} {s s' : Progress}
    (h : Compiles c keys path d join target s condition s')
    (hcondition : condition.isNothing = false) :
    c.Sorts keys (condition.Offers join target) condition.attachments := by
  have heverything : ∀ join target,
      c.Sorts keys ((c.everything keys join target).Offers join target)
        (c.everything keys join target).attachments := fun join target =>
    sorts_leaf rfl (by simp [Condition.everything, Condition.atoms]) rfl rfl
  induction h with
  | thing => exact heverything ..
  | inNamespace number =>
    refine sorts_leaf rfl ?_ rfl rfl
    simp [Condition.withSafe, Condition.withAttachments, Condition.ofPattern, Condition.atoms,
      Clause.atoms, Clause.key?]
  | noCategory _ => cases hcondition
  | inCategory _ _ =>
    refine sorts_leaf rfl ?_ rfl rfl
    simp [Condition.withSafe, Condition.withAttachments, Condition.ofPattern, Condition.atoms,
      Clause.atoms, Clause.key?]
  | noConcept _ => cases hcondition
  | concept _ _ ih => exact ih hcondition
  | @value _ join target _ p comparator x =>
    obtain ⟨plain, heq, hplain, -, hweak, hsorts⟩ :=
      c.comparedCondition_eq keys join target p comparator x
    have hatoms : (c.comparedCondition keys join target p comparator x).atoms = [] :=
      atoms_comparedCondition ..
    rw [heq, Condition.atoms_eq_of_form (form_attachSort ..)] at hatoms
    rw [heq]
    exact sorts_leaf hplain (by simp [hatoms]) hweak hsorts
  | noProperty _ => cases hcondition
  | @someProperty _ join target _ _ _ p _ _ clause _ inner group _ hopen _ hgroup ih =>
    obtain ⟨plain, heq, hform, hweak, hsorts⟩ :=
      c.propertyCondition_eq keys join target p clause inner group
    have hinner := ih (Condition.isNothing_of_toPattern? hgroup)
    rw [heq]
    exact sorts_attachSort (by simp [Condition.isNothing, hform])
      (sorts_property hopen hgroup hinner hform hweak hsorts)
  | emptyProperty => cases hcondition
  | conjunctionNone => exact heverything ..
  | conjunctionOne _ ih => exact ih hcondition
  | conjunction _ _ chain hmerge ih =>
    exact sorts_attachSort (Merge.finish_cases _).1
      (sorts_finish hmerge (chain.forall_result ih)).1
  | clash => cases hcondition
  | @disjunction _ join target _ _ _ conditions _ _ chain _ ih =>
    have hbranches := sorts_found (chain.forall_result ih)
    rw [attachRequested_alternatives hbranches] at hcondition ⊢
    have hfound : conditions.filter (!·.isNothing) ≠ [] := by
      intro hnone
      rw [hnone] at hcondition
      cases hcondition
    exact sorts_alternatives hfound hbranches
  | saturation => exact heverything ..

theorem sorts_of_chain {R : Description → Progress → Condition → Progress → Prop}
    {path : List Page} {parts : List Description} {conditions : List Condition} {s s' : Progress}
    (hsteps : ∀ part s b s', R part s b s' → Compiles c keys path part join target s b s')
    (chain : Chain R parts s conditions s') :
    ∀ b ∈ conditions, b.isNothing = false → c.Sorts keys (b.Offers join target) b.attachments :=
  chain.forall_result fun part s b s' hR => (hsteps part s b s' hR).sorts

-- Clauses ask for values of properties that the wiki knows. A value that is a page has a variable
-- of its own, which the clause introduces.
def Asks (c : Compiler) (clause : Clause) : Prop :=
  ∀ key, clause.key? = some key → ∃ info v, c.catalog.property? { key } = some info ∧
    clause.value? = some v ∧ (info.datatype.isPage = true → clause.introduces? = some v)

theorem asks_opening {v : Variable} {p : Property} {info : PropertyInfo} {s s₁ : Progress}
    {clause : Clause} (hp : c.catalog.property? p = some info)
    (h : c.opening join p info s = ((clause, v), s₁)) : c.Asks clause := by
  obtain ⟨hkey, hvalue⟩ := key?_opening h
  intro key hkey'
  rw [hkey] at hkey'
  cases hkey'
  refine ⟨info, v, hp, hvalue, ?_⟩
  intro hpage
  obtain ⟨closure, s₀, -, ⟨-, -, rfl, -⟩ | ⟨hinline, -⟩⟩ := opening_cases h
  · exact introduces?_link ..
  · rw [hpage] at hinline
    cases hinline

theorem trace_asks : c.Trace fun _ clauses _ => ∀ clause ∈ clauses, c.Asks clause where
  refl := by simp
  trans h₁ h₂ := List.forall_mem_append.mpr ⟨h₁, h₂⟩
  rollback _ := by simp
  inNamespace _ _ _ := by simp [Asks, Clause.key?]
  inCategory _ := by simp [Asks, Clause.key?]
  opening hp hopen := List.forall_mem_singleton.mpr (asks_opening hp hopen)

theorem Compiles.asks {path : List Page} {d : Description} {s s' : Progress}
    (h : Compiles c keys path d join target s condition s') :
    ∀ clause ∈ condition.atoms, c.Asks clause :=
  h.trace trace_asks

theorem Compiles.exists_gives_iff {path : List Page} {d : Description} {s s' : Progress}
    (h : Compiles c keys path d join target s condition s') {key : String} :
    (∃ v, condition.Gives key v) ↔ ∃ clause ∈ condition.atoms, clause.key? = some key := by
  constructor
  · rintro ⟨v, clause, hclause, hkey, -⟩
    exact ⟨clause, hclause, hkey⟩
  · rintro ⟨clause, hclause, hkey⟩
    obtain ⟨-, v, -, hvalue, -⟩ := h.asks clause hclause key hkey
    exact ⟨v, clause, hclause, hkey, hvalue⟩

theorem Compiles.attachments_of_isNothing {path : List Page} {d : Description} {s s' : Progress}
    (h : Compiles c keys path d join target s condition s')
    (hcondition : condition.isNothing = true) : condition.attachments = {} :=
  (Condition.normal_of_nothing (Condition.form_eq_nothing.mpr hcondition)).mp h.normal

end Compiler

namespace Session

theorem mem_rootTarget {keys : SortKeys} {t : SortTarget} :
    t ∈ keys.rootTarget ↔ keys.contains SortKeys.mainSubject = true ∧ t = .mainSubject := by
  unfold SortKeys.rootTarget
  by_cases h : keys.contains SortKeys.mainSubject = true
  · simp [h, eq_comm]
  · simp [h]

-- A query that something can fulfil records a variable for just those of the requested keys that
-- stand for the results or for a property that its condition mentions.
theorem query_recorded_iff (s : Session) (hc : s.compiler.Standard) (d : Description)
    (sorts : List RequestedSort) :
    ∃ q s', s.query d sorts = (.ok q, s') ∧
      (q.condition.isNothing = false → ∀ key,
        q.condition.attachments.sortVariables.contains key = true ↔
          (∃ sort ∈ sorts, sort.key = key) ∧
            (key = SortKeys.mainSubject ∨
              ∃ clause ∈ q.condition.atoms, clause.key? = some key)) ∧
      (q.condition.isNothing = true → q.condition.attachments.sortVariables = ∅) := by
  obtain ⟨condition, p, s', h, hquery⟩ := s.query_run hc d sorts
  refine ⟨_, s', hquery, ?_, ?_⟩
  · intro hcondition key
    rw [(h.sorts hcondition).recorded, SortKeys.contains_ofRequests, ← h.exists_gives_iff]
    have htarget : (∃ sort ∈ sorts, sort.key = key) →
        ((∃ v, ∃ t ∈ (SortKeys.ofRequests sorts).rootTarget, t.key = key ∧
          v = (⟨s.compiler.settings.result⟩ : Variable)) ↔ key = SortKeys.mainSubject) := by
      intro hkey
      constructor
      · rintro ⟨-, t, ht, rfl, -⟩
        rw [(mem_rootTarget.mp ht).2]
        rfl
      · rintro rfl
        have hmain := SortKeys.contains_ofRequests.mpr hkey
        exact ⟨_, .mainSubject, mem_rootTarget.mpr ⟨hmain, rfl⟩, rfl, rfl⟩
    unfold Condition.Offers
    rw [exists_or]
    exact and_congr_right fun hkey => or_congr_left (htarget hkey)
  · intro hcondition
    exact congrArg Attachments.sortVariables (h.attachments_of_isNothing hcondition)

-- Of two properties with a requested key, one stands in a part that nothing fulfils.
theorem query_recorded_iff_spouses :
    let s : Session :=
      { compiler :=
          { catalog := ((({} : Catalog).addProperty "Has spouse" .page).addProperty "Age"
              .number).addProperty "Nickname" .text } }
    let d : Description := .disjunction
      [.conjunction [.inNamespace 0, .someProperty { key := "Has spouse", inverse := true }
          (.someProperty { key := "Age" } .thing)],
        .someProperty { key := "Nickname" } (.inCategory [⟨"Nowhere", 14⟩])]
    let sorts : List RequestedSort := [{ key := "Age", direction := .desc }, { key := "Nickname" },
      { key := "" }, { key := "Height" }]
    s.compiler.Standard ∧ ∃ q s', s.query d sorts = (.ok q, s') ∧
      (q.condition.isNothing = false → ∀ key,
        q.condition.attachments.sortVariables.contains key = true ↔
          (∃ sort ∈ sorts, sort.key = key) ∧
            (key = SortKeys.mainSubject ∨
              ∃ clause ∈ q.condition.atoms, clause.key? = some key)) ∧
      (q.condition.isNothing = true → q.condition.attachments.sortVariables = ∅) := by
  intro s d sorts
  have hc : s.compiler.Standard := Compiler.standard_of_builders rfl
  exact ⟨hc, query_recorded_iff s hc d sorts⟩

-- What is recorded under a key is a variable that goes with values of that key, the results or
-- those of a property, or a variable that a weak condition binds to what that variable sorts by.
theorem query_recorded_bound (s : Session) (hc : s.compiler.Standard) (d : Description)
    (sorts : List RequestedSort) :
    ∃ q s', s.query d sorts = (.ok q, s') ∧
      ∀ key x, q.condition.attachments.sortVariables.get? key = some x → ∃ v : Variable,
        (x = v ∨ x = v.withSuffix s.compiler.settings.sortSuffix ∧
          .ofPattern [.sortKey v x] ∈ q.condition.attachments.weak) ∧
        (key = SortKeys.mainSubject ∧ v = q.result ∨
          ∃ clause ∈ q.condition.atoms, clause.key? = some key ∧ clause.value? = some v) := by
  obtain ⟨condition, p, s', h, hquery⟩ := s.query_run hc d sorts
  refine ⟨_, s', hquery, ?_⟩
  intro key x hx
  have hcondition : condition.isNothing = false := by
    cases hnothing : condition.isNothing with
    | false => rfl
    | true =>
      rw [h.attachments_of_isNothing hnothing] at hx
      cases hx
  obtain ⟨v, hoffers, hbound⟩ := (h.sorts hcondition).bound key x hx
  refine ⟨v, ?_, ?_⟩
  · rcases hbound with hx | ⟨rfl, hweak⟩
    · exact .inl hx
    · exact .inr ⟨rfl, hweak⟩
  · rcases hoffers with ⟨t, ht, rfl, rfl⟩ | hgives
    · rw [(mem_rootTarget.mp ht).2]
      exact .inl ⟨rfl, rfl⟩
    · exact .inr hgives

-- One key is recorded at two depths and in two alternatives, and the first one counts.
theorem query_recorded_bound_parents :
    let s : Session :=
      { compiler := { catalog := ({} : Catalog).addProperty "Has parent" .page } }
    let d : Description := .disjunction
      [.someProperty { key := "Has parent" } (.someProperty { key := "Has parent" } .thing),
        .someProperty { key := "Has parent", inverse := true } (.inNamespace 0)]
    let sorts : List RequestedSort := [{ key := "Has parent" }, { key := "" }]
    s.compiler.Standard ∧ ∃ q s', s.query d sorts = (.ok q, s') ∧
      ∀ key x, q.condition.attachments.sortVariables.get? key = some x → ∃ v : Variable,
        (x = v ∨ x = v.withSuffix "sk" ∧
          .ofPattern [.sortKey v x] ∈ q.condition.attachments.weak) ∧
        (key = SortKeys.mainSubject ∧ v = q.result ∨
          ∃ clause ∈ q.condition.atoms, clause.key? = some key ∧ clause.value? = some v) := by
  intro s d sorts
  have hc : s.compiler.Standard := Compiler.standard_of_builders rfl
  exact ⟨hc, query_recorded_bound s hc d sorts⟩

end Session

end WikiQuery
