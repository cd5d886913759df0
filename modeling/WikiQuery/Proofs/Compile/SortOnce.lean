import Mathlib.Tactic.ByContra
import WikiQuery.Proofs.Compile.Sorting

namespace WikiQuery

namespace Catalog

-- The property with a key has values that are no pages.
def Inline (c : Catalog) (key : String) : Prop :=
  ∃ info, c.property? { key } = some info ∧ info.datatype.isPage = false

-- A key that some query can be sorted by.
def Sortable (c : Catalog) (key : String) : Prop :=
  key = SortKeys.mainSubject ∨ ∃ info, c.property? { key } = some info

-- If values that are no pages are sorted by, then nothing else is that could be.
def SortsAlone (c : Catalog) (keys : SortKeys) : Prop :=
  ∀ key, keys.contains key = true → c.Inline key →
    ∀ other, keys.contains other = true → c.Sortable other → other = key

end Catalog

namespace Condition

-- No weak condition goes along with a condition twice, nor with any of its branches.
def BindsOnce (c : Condition) : Prop := c.Throughout fun a => a.weak.Nodup

theorem bindsOnce_of_nodup {c : Condition} (hform : c.form.branches = [])
    (hweak : c.attachments.weak.Nodup) : c.BindsOnce :=
  (throughout_of_branches hform).mpr hweak

theorem BindsOnce.nodup {c : Condition} (h : c.BindsOnce) : c.attachments.weak.Nodup :=
  (throughout_iff.mp h).1

end Condition

namespace Compiler

variable {c : Compiler} {keys : SortKeys} {join : Variable} {target : Option SortTarget}
  {datatype : Datatype} {condition : Condition}

theorem sortBinding_injective {v w : Variable} (h : c.sortBinding v = c.sortBinding w) : v = w := by
  simp only [sortBinding, Condition.ofPattern, Condition.mk.injEq, Form.pattern.injEq,
    List.cons.injEq, Clause.sortKey.injEq] at h
  exact h.1.1.1

theorem nodup_attachSort (hcondition : condition.isNothing = false)
    (hweak : condition.attachments.weak.Nodup)
    (hnew : ∀ t ∈ target, keys.contains t.key = true →
      condition.attachments.sortVariables.contains t.key = false →
        c.sortBinding join ∉ condition.attachments.weak) :
    (c.attachSort keys join target datatype condition).attachments.weak.Nodup := by
  rcases c.attachSort_cases keys join target datatype hcondition with
    ⟨heq, -⟩ | ⟨t, rfl, hkey, hfree, hadded, -⟩
  · rw [heq]
    exact hweak
  · rw [hadded]
    unfold sortBindings
    split
    · refine List.nodup_append.mpr ⟨hweak, by simp, ?_⟩
      intro w hw b hb heq
      rw [List.mem_singleton.mp hb] at heq
      rw [heq] at hw
      exact hnew t rfl hkey hfree hw
    · simpa using hweak

-- The sort key of the variable that a condition is about can be bound already for the sake of
-- values that are no pages only, since pages have variables of their own.
theorem sortBinding_notMem (halone : c.catalog.SortsAlone keys)
    (hsorts : c.Sorts keys condition.Gives condition.attachments)
    (hasks : ∀ clause ∈ condition.atoms, c.Asks clause) (hfresh : join ∉ condition.introduced)
    {key : String} (hsortable : c.catalog.Sortable key) (hkey : keys.contains key = true)
    (hnew : condition.attachments.sortVariables.contains key = false) :
    c.sortBinding join ∉ condition.attachments.weak := by
  intro hmem
  obtain ⟨key', v, heq, ⟨clause, hclause, hkey', hvalue⟩, hrecorded⟩ := hsorts.origin _ hmem
  obtain ⟨info, w, hinfo, hw, hpage⟩ := hasks clause hclause key' hkey'
  have hjoin : w = join := by
    rw [sortBinding_injective heq]
    exact Option.some.inj (hw.symm.trans hvalue)
  subst hjoin
  cases hdatatype : info.datatype.isPage with
  | true => exact hfresh (List.mem_filterMap.mpr ⟨clause, hclause, hpage hdatatype⟩)
  | false =>
    have hrequested := ((hsorts.recorded key').mp hrecorded).1
    have hsame := halone key' hrequested ⟨info, hinfo, hdatatype⟩ key hkey hsortable
    rw [hsame, hrecorded] at hnew
    cases hnew

theorem bindsOnce_leaf (hcondition : condition.isNothing = false)
    (hform : condition.form.branches = []) (hweak : condition.attachments.weak = []) :
    (c.attachSort keys join target datatype condition).BindsOnce := by
  apply Condition.bindsOnce_of_nodup
  · rw [form_attachSort, hform]
  · exact nodup_attachSort hcondition (by simp [hweak]) (by simp [hweak])

theorem bindsOnce_attachSort (halone : c.catalog.SortsAlone keys)
    (htarget : ∀ t ∈ target, c.catalog.Sortable t.key) (hcondition : condition.isNothing = false)
    (hform : condition.form.branches = [])
    (hsorts : c.Sorts keys condition.Gives condition.attachments)
    (hasks : ∀ clause ∈ condition.atoms, c.Asks clause) (hfresh : join ∉ condition.introduced)
    (hweak : condition.attachments.weak.Nodup) :
    (c.attachSort keys join target datatype condition).BindsOnce := by
  apply Condition.bindsOnce_of_nodup
  · rw [form_attachSort, hform]
  · apply nodup_attachSort hcondition hweak
    intro t ht hkey hnew
    exact sortBinding_notMem halone hsorts hasks hfresh (htarget t ht) hkey hnew

theorem introduced_opening {v : Variable} {p : Property} {info : PropertyInfo} {s s₁ : Progress}
    {clause : Clause} {rest : List Clause} (h : c.opening join p info s = ((clause, v), s₁))
    (hfresh : (join :: Clause.introduced (clause :: rest)).Nodup) :
    (v :: Clause.introduced rest).Nodup := by
  obtain ⟨closure, s₀, -, ⟨-, -, rfl, -⟩ | ⟨-, rfl, rfl, -⟩⟩ := opening_cases h
  · unfold Clause.introduced at hfresh
    rw [List.filterMap_cons_some (introduces?_link ..)] at hfresh
    exact (List.nodup_cons.mp hfresh).2
  · exact hfresh

theorem bindsOnce_alternatives {branches : List Condition}
    (hsorts : ∀ b ∈ branches, c.Sorts keys (b.Offers join target) b.attachments)
    (h : ∀ b ∈ branches, b.BindsOnce) : (alternativesCondition branches).BindsOnce := by
  have hempty : c.Sorts keys (fun _ _ => False) {} := .empty rfl rfl (by simp)
  rcases branches with _ | ⟨first, _ | ⟨second, rest⟩⟩
  · exact Condition.bindsOnce_of_nodup rfl List.nodup_nil
  · exact h first (by simp)
  · exact Condition.throughout_iff.mpr ⟨hempty.nodup_foldl hsorts List.nodup_nil, h⟩

-- Merging drops what is there already, so that only the sort that comes last can repeat a binding.
theorem Compiles.bindsOnce {path : List Page} {d : Description} {s s' : Progress}
    (h : Compiles c keys path d join target s condition s')
    (halone : c.catalog.SortsAlone keys) (htarget : ∀ t ∈ target, c.catalog.Sortable t.key)
    (hfresh : (join :: condition.introduced).Nodup) : condition.BindsOnce := by
  have hnothing : Condition.nothing.BindsOnce := Condition.bindsOnce_of_nodup rfl List.nodup_nil
  have heverything : ∀ join target, (c.everything keys join target).BindsOnce :=
    fun join target => bindsOnce_leaf rfl rfl rfl
  induction h with
  | thing => exact heverything ..
  | inNamespace number => exact bindsOnce_leaf rfl rfl rfl
  | noCategory _ => exact hnothing
  | inCategory _ _ => exact bindsOnce_leaf rfl rfl rfl
  | noConcept _ => exact hnothing
  | concept _ _ ih => exact ih htarget hfresh
  | @value _ join target _ p comparator x =>
    obtain ⟨plain, heq, hplain, hform, hweak, -⟩ :=
      c.comparedCondition_eq keys join target p comparator x
    rw [heq]
    exact bindsOnce_leaf hplain hform hweak
  | noProperty _ => exact hnothing
  | @someProperty _ join target _ _ _ p _ _ clause v inner group hp hopen hinner hgroup ih =>
    obtain ⟨plain, heq, hform, hweak, hsorts⟩ :=
      c.propertyCondition_eq keys join target p clause inner group
    have hatoms := atoms_property hopen hgroup hform
    have hplain := sorts_property hopen hgroup
      (hinner.sorts (Condition.isNothing_of_toPattern? hgroup)) hform hweak hsorts
    rw [heq] at hfresh ⊢
    unfold Condition.introduced at hfresh
    rw [Condition.atoms_eq_of_form (form_attachSort ..)] at hfresh
    have honce : inner.BindsOnce := by
      rw [hatoms] at hfresh
      refine ih ?_ (introduced_opening hopen hfresh)
      intro t ht
      cases ht
      exact .inr ⟨_, hp⟩
    refine bindsOnce_attachSort halone htarget (by simp [Condition.isNothing, hform])
      (by simp [hform, Form.branches]) hplain ?_ (List.nodup_cons.mp hfresh).1 ?_
    · rw [hatoms]
      exact List.forall_mem_cons.mpr ⟨asks_opening hp hopen, hinner.asks⟩
    · rw [hweak]
      exact honce.nodup
  | emptyProperty => exact hnothing
  | conjunctionNone => exact heverything ..
  | conjunctionOne _ ih => exact ih htarget hfresh
  | @conjunction _ join target _ _ _ conditions m _ _ hsteps chain hmerge ih =>
    obtain ⟨hnothing, hform⟩ := m.finish_cases
    obtain ⟨hsorts, hweak⟩ := sorts_finish hmerge (sorts_of_chain hsteps chain)
    have hatoms := (Merge.atoms_finish m).trans (Merge.atoms_all? hmerge)
    unfold Condition.introduced at hfresh
    rw [atoms_attachRequested] at hfresh
    refine bindsOnce_attachSort halone htarget hnothing hform hsorts ?_
      (List.nodup_cons.mp hfresh).1 hweak
    rw [hatoms]
    exact List.forall_mem_flatMap.mpr
      (chain.forall_result fun part s b s' hR => (hsteps part s b s' hR).asks)
  | clash => exact hnothing
  | @disjunction _ join target _ _ _ conditions _ hsteps chain _ ih =>
    have hsorts := sorts_found (sorts_of_chain hsteps chain)
    have honce : ∀ b ∈ conditions.filter (!·.isNothing), b.BindsOnce := by
      intro b hb
      unfold Condition.introduced at hfresh
      rw [atoms_attachRequested, atoms_alternativesCondition] at hfresh
      have hsub := Clause.introduced_sublist_flatMap Condition.atoms hb
      exact chain.forall_result ih b (List.mem_filter.mp hb).1 htarget
        (hfresh.sublist (hsub.cons_cons join))
    rw [attachRequested_alternatives hsorts]
    exact bindsOnce_alternatives hsorts honce
  | saturation => exact heverything ..

theorem weak_namespaceCondition {key : String} {number : Int32}
    (hkey : keys.contains key = true) :
    (c.namespaceCondition keys join (some ⟨key, datatype⟩) number).attachments.weak =
        [c.sortBinding join] ∧
      (c.namespaceCondition keys join (some ⟨key, datatype⟩) number).attachments.sortVariables =
        KeyMap.insert ∅ key (join.withSuffix c.settings.sortSuffix) :=
  attachSort_new c join .page rfl hkey rfl

theorem nodup_of_attachSort (hcondition : condition.isNothing = false)
    (h : (c.attachSort keys join target datatype condition).attachments.weak.Nodup) :
    condition.attachments.weak.Nodup := by
  rcases c.attachSort_cases keys join target datatype hcondition with
    ⟨heq, -⟩ | ⟨-, -, -, -, hweak, -⟩
  · rw [heq] at h
    exact h
  · rw [hweak] at h
    exact (List.nodup_append.mp h).1

-- A property whose values are no pages speaks of its subject, and what it asks of the values can
-- speak of pages: then both are sorted by the sort key of the one variable.
theorem Compiles.weak_inline {path : List Page} {s s' : Progress} {key : String} {t : SortTarget}
    (hkey : keys.contains key = true) (hinline : c.catalog.Inline key)
    (ht : keys.contains t.key = true) (hne : t.key ≠ key)
    (h : Compiles c keys path (.someProperty { key } (.inNamespace 0)) join (some t) s
      condition s') :
    condition.attachments.weak = [c.sortBinding join, c.sortBinding join] := by
  obtain ⟨info, hinfo, hdatatype⟩ := hinline
  cases h with
  | noProperty hnone =>
    rw [hinfo] at hnone
    cases hnone
  | @someProperty _ _ _ _ _ _ _ _ info' clause v inner group hp hopen hinner hgroup =>
    rw [hinfo] at hp
    cases hp
    obtain ⟨-, -, -, ⟨hpage, -⟩ | ⟨-, rfl, -⟩⟩ := opening_cases hopen
    · rw [hdatatype] at hpage
      cases hpage
    obtain ⟨plain, heq, hform, hweak, hsorts⟩ :=
      c.propertyCondition_eq keys v (some t) { key } clause inner group
    cases hinner
    obtain ⟨hfirst, hrecorded⟩ := weak_namespaceCondition hkey
    have hnew : plain.attachments.sortVariables.contains t.key = false := by
      rw [hsorts, hrecorded, ← Bool.not_eq_true, KeyMap.contains_insert]
      simp [hne]
    rw [heq, (attachSort_new c v .page _ ht hnew).1, hweak, hfirst]
    · rfl
    · simp [Condition.isNothing, hform]
  | emptyProperty hp hopen hinner hgroup =>
    cases hinner
    have hform := Condition.toPattern?_eq_none.mp hgroup
    rw [form_namespaceCondition] at hform
    cases hform

-- Sorts of another kind of values go along with the sorts of the property that leads to them.
theorem Compiles.nodup_of_property {path : List Page} {s s' : Progress} {p : Property}
    {info : PropertyInfo} {d : Description} (hp : c.catalog.property? p = some info)
    (h : Compiles c keys path (.someProperty p d) join target s condition s')
    (hweak : condition.attachments.weak.Nodup) :
    ∃ v s₁ inner s₂, Compiles c keys path d v (some ⟨p.key, info.datatype⟩) s₁ inner s₂ ∧
      inner.attachments.weak.Nodup := by
  cases h with
  | noProperty hnone =>
    rw [hp] at hnone
    cases hnone
  | @someProperty _ _ _ _ _ _ _ _ _ clause v inner group hp' hopen hinner hgroup =>
    rw [hp] at hp'
    cases hp'
    obtain ⟨plain, heq, hform, hinnerWeak, -⟩ :=
      c.propertyCondition_eq keys join target p clause inner group
    rw [heq] at hweak
    refine ⟨v, _, inner, _, hinner, ?_⟩
    rw [← hinnerWeak]
    exact nodup_of_attachSort (by simp [Condition.isNothing, hform]) hweak
  | @emptyProperty _ _ _ _ _ _ _ _ _ _ v inner hp' _ hinner hgroup =>
    rw [hp] at hp'
    cases hp'
    have hnothing := Condition.form_eq_nothing.mp (Condition.toPattern?_eq_none.mp hgroup)
    refine ⟨v, _, inner, _, hinner, ?_⟩
    rw [hinner.attachments_of_isNothing hnothing]
    exact List.nodup_nil

theorem exists_not_nodup {key other : String} (hkey : keys.contains key = true)
    (hinline : c.catalog.Inline key) (hother : keys.contains other = true)
    (hsortable : c.catalog.Sortable other) (hne : other ≠ key) :
    ∃ d, ∀ path join s condition s', Compiles c keys path d join keys.rootTarget s condition s' →
      ¬ condition.attachments.weak.Nodup := by
  have hpair : ∀ v, ¬ [c.sortBinding v, c.sortBinding v].Nodup := by simp
  rcases hsortable with rfl | ⟨info, hinfo⟩
  · refine ⟨.someProperty { key } (.inNamespace 0), ?_⟩
    intro path join s condition s' h hweak
    have htarget : keys.rootTarget = some .mainSubject :=
      Session.mem_rootTarget.mpr ⟨hother, rfl⟩
    rw [htarget] at h
    rw [h.weak_inline hkey hinline hother hne] at hweak
    exact hpair join hweak
  · refine ⟨.someProperty { key := other } (.someProperty { key } (.inNamespace 0)), ?_⟩
    intro path join s condition s' h hweak
    obtain ⟨v, s₁, inner, s₂, hinner, hweak⟩ := h.nodup_of_property hinfo hweak
    rw [hinner.weak_inline hkey hinline hother hne] at hweak
    exact hpair v hweak

end Compiler

namespace Session

-- Every query binds each sort key once, just if no requested key leads to values that are no pages
-- while another one can be of use.
theorem query_bindsOnce_iff (s : Session) (hc : s.compiler.Standard)
    (hsettings : s.compiler.settings.fault? = none) (sorts : List RequestedSort) :
    (∀ d, ∃ q s', s.query d sorts = (.ok q, s') ∧ q.condition.BindsOnce) ↔
      ∀ sort ∈ sorts, s.compiler.catalog.Inline sort.key →
        ∀ other ∈ sorts, s.compiler.catalog.Sortable other.key → other.key = sort.key := by
  constructor
  · intro hall sort hsort hinline other hother hsortable
    have hkey := SortKeys.contains_ofRequests.mpr ⟨sort, hsort, rfl⟩
    have hother := SortKeys.contains_ofRequests.mpr ⟨other, hother, rfl⟩
    by_contra hne
    obtain ⟨d, hd⟩ := Compiler.exists_not_nodup hkey hinline hother hsortable hne
    obtain ⟨condition, p, s', h, hquery⟩ := s.query_run hc d sorts
    obtain ⟨q, s'', hquery', honce⟩ := hall d
    rw [hquery] at hquery'
    cases hquery'
    exact hd _ _ _ _ _ h honce.nodup
  · intro halone d
    obtain ⟨condition, p, s', h, hquery⟩ := s.query_run hc d sorts
    refine ⟨_, s', hquery, h.bindsOnce ?_ ?_ ?_⟩
    · intro key hkey hinline other hother hsortable
      obtain ⟨sort, hsort, rfl⟩ := SortKeys.contains_ofRequests.mp hkey
      obtain ⟨second, hsecond, rfl⟩ := SortKeys.contains_ofRequests.mp hother
      exact halone sort hsort hinline second hsecond hsortable
    · intro t ht
      rw [(mem_rootTarget.mp ht).2]
      exact .inl rfl
    · refine List.nodup_cons.mpr ⟨?_, h.numbers.nodup⟩
      intro hmem
      obtain ⟨k, -, -, heq⟩ := h.numbers.numbered _ hmem
      exact Compiler.result_ne_numbered hsettings k heq

-- Nothing can be sorted by a key that the wiki does not know, so that another one is alone with it.
theorem query_bindsOnce_iff_ages :
    let s : Session :=
      { compiler :=
          { catalog := (({} : Catalog).addProperty "Has spouse" .page).addProperty "Age"
              .number } }
    let sorts : List RequestedSort := [{ key := "Age" }, { key := "Height", direction := .desc }]
    s.compiler.Standard ∧ s.compiler.settings.fault? = none ∧ s.compiler.catalog.Inline "Age" ∧
      ∀ d, ∃ q s', s.query d sorts = (.ok q, s') ∧ q.condition.BindsOnce := by
  intro s sorts
  have hc : s.compiler.Standard := Compiler.standard_of_builders rfl
  have hsettings : s.compiler.settings.fault? = none := by decide +kernel
  have hage : s.compiler.catalog.Inline "Age" := ⟨⟨2, .number⟩, rfl, rfl⟩
  have hheight : ¬ s.compiler.catalog.Sortable "Height" := by
    rintro (hmain | ⟨info, hinfo⟩)
    · exact absurd hmain (by decide)
    · cases hinfo
  have hkeys : ∀ sort ∈ sorts, s.compiler.catalog.Sortable sort.key → sort.key = "Age" := by
    intro sort hsort hsortable
    simp only [sorts, List.mem_cons, List.not_mem_nil, or_false] at hsort
    rcases hsort with rfl | rfl
    · rfl
    · exact absurd hsortable hheight
  refine ⟨hc, hsettings, hage, (query_bindsOnce_iff s hc hsettings sorts).mpr ?_⟩
  intro sort hsort ⟨info, hinfo, _⟩ other hother hsortable
  rw [hkeys other hother hsortable, hkeys sort hsort (.inr ⟨info, hinfo⟩)]

-- Results are sorted and so are ages, which have no variable but that of the results.
theorem query_binds_twice :
    let s : Session := { compiler := { catalog := ({} : Catalog).addProperty "Age" .number } }
    s.compiler.settings.fault? = none ∧
      ∃ q s', s.query (.someProperty { key := "Age" } (.inNamespace 0))
          [{ key := "Age" }, { key := "" }] = (.ok q, s') ∧
        q.condition.attachments.weak =
          [.ofPattern [.sortKey ⟨"result"⟩ ⟨"resultsk"⟩],
            .ofPattern [.sortKey ⟨"result"⟩ ⟨"resultsk"⟩]] ∧
        ¬ q.condition.BindsOnce := by
  intro s
  have hsettings : s.compiler.settings.fault? = none := by decide +kernel
  have hc : s.compiler.Standard := Compiler.standard_of_builders rfl
  obtain ⟨condition, p, s', h, hquery⟩ := s.query_run hc
    (.someProperty { key := "Age" } (.inNamespace 0)) [{ key := "Age" }, { key := "" }]
  have hweak := Compiler.Compiles.weak_inline (t := .mainSubject) (by decide +kernel)
    ⟨⟨1, .number⟩, rfl, rfl⟩ (by decide +kernel) (by decide) h
  refine ⟨hsettings, _, s', hquery, hweak, ?_⟩
  intro honce
  have hnodup := honce.nodup
  rw [hweak] at hnodup
  simp at hnodup

end Session

end WikiQuery
