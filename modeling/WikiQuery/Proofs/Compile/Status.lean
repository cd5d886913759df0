import Mathlib.Tactic.ByContra
import Mathlib.Tactic.Tauto
import WikiQuery.Proofs.Compile.Normal

namespace WikiQuery

-- What is known of a description before anything is known of the entities: each of them fulfils it,
-- none does, at most the resource with an identity does, or that depends.
inductive Status where
  | always
  | never
  | only (identity : String)
  | depends
deriving DecidableEq

namespace Status

-- The identities of the resources that are named.
def identities (statuses : List Status) : List String :=
  statuses.filterMap fun
    | only identity => some identity
    | _ => none

-- All of several descriptions together. Two resources with different identities exclude each other,
-- and one of them is all that is left besides anything that depends.
def conjunction : List Status → Status
  | [] => always
  | [status] => status
  | statuses =>
    if never ∈ statuses ∨ ∃ i ∈ identities statuses, ∃ j ∈ identities statuses, i ≠ j then never
    else match identities statuses with
      | identity :: _ => only identity
      | [] => if ∀ status ∈ statuses, status = always then always else depends

-- One of several descriptions. Those that nothing fulfils do not count.
def disjunction (statuses : List Status) : Status :=
  if always ∈ statuses then always
  else match statuses.filter (· ≠ never) with
    | [] => never
    | [status] => status
    | _ => depends

-- A comparison with a value. Wildcards are of use on texts only, and a page equals itself only.
def comparison (comparator : Comparator) (x : Value) : Status :=
  match comparator, x with
  | .unknown, _ => always
  | .like, .text _ => depends
  | .like, _ => always
  | .notLike, .text _ => depends
  | .notLike, _ => always
  | .eq, .page r => only r.identity
  | _, _ => depends

theorem mem_identities {statuses : List Status} {identity : String} :
    identity ∈ identities statuses ↔ only identity ∈ statuses := by
  unfold identities
  rw [List.mem_filterMap]
  constructor
  · rintro ⟨status, hmem, hidentity⟩
    cases status <;> simp_all
  · intro hmem
    exact ⟨only identity, hmem, rfl⟩

theorem conjunction_of_two_le {statuses : List Status} (h : 2 ≤ statuses.length) :
    conjunction statuses =
      if never ∈ statuses ∨ ∃ i ∈ identities statuses, ∃ j ∈ identities statuses, i ≠ j then never
      else match identities statuses with
        | identity :: _ => only identity
        | [] => if ∀ status ∈ statuses, status = always then always else depends := by
  match statuses, h with
  | _ :: _ :: _, _ => rfl

theorem conjunction_eq_never {statuses : List Status} (hlen : 2 ≤ statuses.length)
    (h : never ∈ statuses ∨ ∃ i j, only i ∈ statuses ∧ only j ∈ statuses ∧ i ≠ j) :
    conjunction statuses = never := by
  rw [conjunction_of_two_le hlen, if_pos]
  rcases h with h | ⟨i, j, hi, hj, hne⟩
  · exact .inl h
  · exact .inr ⟨i, mem_identities.mpr hi, j, mem_identities.mpr hj, hne⟩

end Status

-- The status that a condition shows.
def Form.status {γ : Type} : Form γ → Status
  | .everything => .always
  | .nothing => .never
  | .singleton r _ => .only r.identity
  | .pattern _ => .depends
  | .filter _ => .depends
  | .alternatives _ => .depends

namespace Form

variable {γ : Type} {form : Form γ}

theorem status_eq_always : form.status = .always ↔ form = .everything := by
  cases form <;> simp [status]

theorem status_eq_never : form.status = .never ↔ form = .nothing := by
  cases form <;> simp [status]

theorem status_eq_only {identity : String} :
    form.status = .only identity ↔ ∃ r p, form = .singleton r p ∧ r.identity = identity := by
  cases form <;> simp [status]

theorem status_eq_depends : form.status = .depends ↔
    (∃ p, form = .pattern p) ∨ (∃ f, form = .filter f) ∨
      ∃ branches, form = .alternatives branches := by
  cases form <;> simp [status]

end Form

-- The status of a description, which is found in the catalog alone: on a path of concepts, a
-- concept has the status of its definition.
def Catalog.status (c : Catalog) (path : List Page) (d : Description) : Status :=
  match d with
  | .thing => .always
  | .inNamespace _ => .depends
  | .inCategory categories =>
    if ∀ category ∈ categories, c.category? category = none then .never else .depends
  | .concept page =>
    match _h : c.enter? path page with
    | none => .never
    | some definition => status c (page :: path) definition
  | .value _ comparator x => .comparison comparator x
  | .someProperty p inner =>
    if c.property? p = none ∨ status c path inner = .never then .never else .depends
  | .conjunction parts => .conjunction (parts.map fun part => status c path part)
  | .disjunction parts => .disjunction (parts.map fun part => status c path part)
termination_by (c.remaining path, sizeOf d)
decreasing_by
  · exact Prod.Lex.left _ _ (remaining_enter_lt _h)
  all_goals decreasing_tactic

namespace Catalog

variable {c : Catalog} {path : List Page}

theorem status_noConcept {page : Page} (h : c.enter? path page = none) :
    c.status path (.concept page) = .never := by
  rw [status]
  split
  · rfl
  · simp_all

theorem status_concept {page : Page} {definition : Description}
    (h : c.enter? path page = some definition) :
    c.status path (.concept page) = c.status (page :: path) definition := by
  rw [status]
  split
  · simp_all
  · simp_all

theorem status_conjunction (parts : List Description) :
    c.status path (.conjunction parts) = .conjunction (parts.map (c.status path)) := by
  rw [status]

theorem status_disjunction (parts : List Description) :
    c.status path (.disjunction parts) = .disjunction (parts.map (c.status path)) := by
  rw [status]

theorem known_eq_nil {categories : List Page} :
    c.known categories = [] ↔ ∀ category ∈ categories, c.category? category = none := by
  unfold known
  rw [List.eq_nil_iff_forall_not_mem]
  simp only [List.mem_eraseDups]
  rw [← List.eq_nil_iff_forall_not_mem, List.filterMap_eq_nil_iff]

end Catalog

theorem Condition.status_eq_only {c : Condition} {identity : String} :
    c.form.status = .only identity ↔ ∃ r, c.bound? = some r ∧ r.identity = identity := by
  obtain ⟨form, a⟩ := c
  cases form <;> simp [Form.status, bound?]

namespace Merge

-- What merged conditions tell of the statuses of the conditions.
structure Sums (m : Merge) (statuses : List Status) : Prop where
  possible : .never ∉ statuses
  bound : ∀ identity, .only identity ∈ statuses ↔ ∃ r, m.bound = some r ∧ r.identity = identity
  always : (∀ status ∈ statuses, status = .always) ↔
    m.pattern = [] ∧ m.filter = [] ∧ m.bound = none

variable {join : Variable} {m m' : Merge} {c : Condition} {statuses : List Status}

theorem Sums.absorb? (hm : m.Sums statuses) (hc : c.Normal) (h : m.absorb? join c = some m') :
    m'.Sums (statuses ++ [c.form.status]) := by
  have hclash : ¬ (c.form = .nothing ∨
      ∃ bound r, m.bound = some bound ∧ c.bound? = some r ∧ bound.identity ≠ r.identity) := by
    intro hnone
    have hcontra : m.absorb? join c = none := absorb?_eq_none.mpr hnone
    rw [h] at hcontra
    cases hcontra
  obtain ⟨hform, hsame⟩ := not_or.mp hclash
  obtain ⟨p, f, rfl, -, hempty⟩ := absorb?_of_normal hc h
  refine ⟨?_, ?_, ?_⟩
  · rw [List.mem_append, List.mem_singleton, eq_comm, Form.status_eq_never]
    exact not_or.mpr ⟨hm.possible, hform⟩
  · intro identity
    rw [List.mem_append, List.mem_singleton, eq_comm, Condition.status_eq_only, hm.bound]
    cases hbound : m.bound with
    | none => simp
    | some bound =>
      -- a second binding is to a resource with the identity of the first
      constructor
      · rintro (h | ⟨r, hr, rfl⟩)
        · simpa using h
        · refine ⟨bound, rfl, ?_⟩
          by_contra hne
          exact hsame ⟨bound, r, hbound, hr, hne⟩
      · intro h
        exact .inl (by simpa using h)
  · rw [List.forall_mem_append, hm.always, List.forall_mem_singleton, Form.status_eq_always, hempty]
    simp only [List.append_eq_nil_iff, Option.or_eq_none_iff]
    tauto

theorem Sums.of_absorb?_eq_none (hm : m.Sums statuses) (h : m.absorb? join c = none) :
    c.form.status = .never ∨ ∃ i j, .only i ∈ statuses ∧ c.form.status = .only j ∧ i ≠ j := by
  rcases absorb?_eq_none.mp h with hform | ⟨bound, r, hbound, hr, hne⟩
  · exact .inl (Form.status_eq_never.mpr hform)
  · exact .inr ⟨bound.identity, r.identity, (hm.bound _).mpr ⟨bound, hbound, rfl⟩,
      Condition.status_eq_only.mpr ⟨r, hr, rfl⟩, hne⟩

theorem sums_all? {conditions : List Condition} (hc : ∀ c ∈ conditions, c.Normal)
    (h : all? join conditions = some m) : m.Sums (conditions.map (·.form.status)) := by
  refine all_induction (P := fun done m => (∀ c ∈ done, c.Normal) →
    m.Sums (done.map (·.form.status))) ?_ ?_ h hc
  · intro _
    exact ⟨by simp, by simp, by simp⟩
  · intro done m c m' hdone habsorb hnormal
    obtain ⟨hbefore, hlast⟩ := List.forall_mem_append.mp hnormal
    rw [List.map_append]
    exact (hdone hbefore).absorb? (hlast c (by simp)) habsorb

theorem Sums.finish (hm : m.Sums statuses) (hlen : 2 ≤ statuses.length) :
    m.finish.form.status = .conjunction statuses := by
  have hpossible : ¬ (Status.never ∈ statuses ∨
      ∃ i ∈ Status.identities statuses, ∃ j ∈ Status.identities statuses, i ≠ j) := by
    rintro (hnever | ⟨i, hi, j, hj, hne⟩)
    · exact hm.possible hnever
    · obtain ⟨r, hr, rfl⟩ := (hm.bound i).mp (Status.mem_identities.mp hi)
      obtain ⟨r', hr', rfl⟩ := (hm.bound j).mp (Status.mem_identities.mp hj)
      rw [hr] at hr'
      cases hr'
      exact hne rfl
  rw [Status.conjunction_of_two_le hlen, if_neg hpossible]
  unfold Merge.finish Merge.form
  cases hbound : m.bound with
  | some r =>
    cases hidentities : Status.identities statuses with
    | nil =>
      have hmem := Status.mem_identities.mpr ((hm.bound r.identity).mpr ⟨r, hbound, rfl⟩)
      rw [hidentities] at hmem
      cases hmem
    | cons identity rest =>
      have hmem : identity ∈ Status.identities statuses := by simp [hidentities]
      obtain ⟨r', hr', rfl⟩ := (hm.bound identity).mp (Status.mem_identities.mp hmem)
      rw [hbound] at hr'
      cases hr'
      rfl
  | none =>
    have hidentities : Status.identities statuses = [] := by
      refine List.eq_nil_iff_forall_not_mem.mpr fun identity hmem => ?_
      obtain ⟨r, hr, -⟩ := (hm.bound identity).mp (Status.mem_identities.mp hmem)
      simp [hbound] at hr
    rw [hidentities]
    dsimp only
    by_cases hp : m.pattern = []
    · by_cases hf : m.filter = []
      · rw [if_pos (hm.always.mpr ⟨hp, hf, hbound⟩)]
        simp [hp, hf, Form.status]
      · rw [if_neg fun h => hf (hm.always.mp h).2.1]
        simp [hp, hf, Form.status]
    · rw [if_neg fun h => hp (hm.always.mp h).1]
      simp [hp, Form.status]

end Merge

namespace Compiler

variable {c : Compiler} {keys : SortKeys} {join : Variable} {target : Option SortTarget}

theorem status_valueCondition? (join : Variable) (p : Property) (comparator : Comparator)
    (x : Value) :
    (c.valueCondition? join p comparator x).elim .always (·.form.status) =
      Status.comparison comparator x := by
  cases comparator <;> cases x <;> rfl

theorem status_comparedCondition (p : Property) (comparator : Comparator) (x : Value) :
    (c.comparedCondition keys join target p comparator x).form.status =
      .comparison comparator x := by
  rw [← c.status_valueCondition? join p comparator x]
  unfold comparedCondition
  rw [form_attachSort]
  cases c.valueCondition? join p comparator x with
  | none => rfl
  | some condition => simp only [form_declareValue, Option.elim_some]

-- Alternatives show the status of their statuses: dropping those that nothing fulfils drops those
-- that are never fulfilled.
theorem status_alternativesCondition {conditions : List Condition}
    (h : ∀ condition ∈ conditions, condition.isEverything = false) :
    (alternativesCondition (conditions.filter (!·.isNothing))).form.status =
      .disjunction (conditions.map (·.form.status)) := by
  have halways : Status.always ∉ conditions.map (·.form.status) := by
    intro hmem
    obtain ⟨condition, hcondition, hstatus⟩ := List.mem_map.mp hmem
    have heverything := Condition.form_eq_everything.mp (Form.status_eq_always.mp hstatus)
    rw [h condition hcondition] at heverything
    cases heverything
  have hfilter : (conditions.map (·.form.status)).filter (· ≠ .never) =
      (conditions.filter (!·.isNothing)).map (·.form.status) := by
    rw [List.filter_map]
    congr 1
    apply List.filter_congr
    intro condition _
    cases hnothing : condition.isNothing with
    | true => simp [Form.status_eq_never.mpr (Condition.form_eq_nothing.mpr hnothing)]
    | false =>
      have hform : condition.form ≠ .nothing := by
        intro hform
        rw [Condition.form_eq_nothing.mp hform] at hnothing
        cases hnothing
      simp [Form.status_eq_never, hform]
  rw [Status.disjunction, if_neg halways, hfilter]
  generalize conditions.filter (!·.isNothing) = found
  match found with
  | [] => rfl
  | [branch] => rfl
  | _ :: _ :: _ => rfl

-- What is compiled shows the status of its description. The compiler stops at the first part that
-- settles the whole, and the status of the parts behind it does not change that.
theorem Compiles.status {path : List Page} {d : Description} {s s' : Progress}
    {condition : Condition} (h : Compiles c keys path d join target s condition s') :
    condition.form.status = c.catalog.status path d := by
  induction h with
  | thing => rw [form_everything, Catalog.status, Form.status]
  | inNamespace number => rw [form_namespaceCondition, Catalog.status, Form.status]
  | noCategory hknown =>
    rw [Catalog.status, if_pos (Catalog.known_eq_nil.mp hknown)]
    rfl
  | inCategory hknown _ =>
    rw [Catalog.status, if_neg (mt Catalog.known_eq_nil.mpr hknown), form_categoryCondition]
    rfl
  | noConcept hnone =>
    rw [Catalog.status_noConcept hnone]
    rfl
  | concept hsome _ ih => rw [ih, Catalog.status_concept hsome]
  | value p comparator x => rw [status_comparedCondition, Catalog.status]
  | noProperty hnone =>
    rw [Catalog.status, if_pos (.inl hnone)]
    rfl
  | @someProperty path _ _ _ _ _ p inner _ _ _ _ _ hp _ _ hgroup ih =>
    have hinner : ¬ (c.catalog.property? p = none ∨ c.catalog.status path inner = .never) := by
      rw [hp, ← ih, Form.status_eq_never, ← Condition.toPattern?_eq_none, hgroup]
      simp
    rw [Catalog.status, if_neg hinner, form_propertyCondition]
    rfl
  | emptyProperty _ _ _ hnone ih =>
    have hinner := Form.status_eq_never.mpr (Condition.toPattern?_eq_none.mp hnone)
    rw [Catalog.status, if_pos (.inr (ih.symm.trans hinner))]
    rfl
  | conjunctionNone => rw [form_everything, Catalog.status_conjunction]; rfl
  | conjunctionOne _ ih => rw [ih, Catalog.status_conjunction]; rfl
  | conjunction hlen hsteps chain hmerge ih =>
    have hnormal := chain.forall_result fun part s b s' h => (hsteps part s b s' h).normal
    have hsums := Merge.sums_all? hnormal hmerge
    rw [chain.map_result ih] at hsums
    rw [form_attachRequested, hsums.finish (by simpa using hlen), Catalog.status_conjunction]
  | @clash path _ _ _ _ _ done part rest _ _ _ _ hlen hsteps chain hmerge _ hclash ih ihpart =>
    have hnormal := chain.forall_result fun part s b s' h => (hsteps part s b s' h).normal
    have hsums := Merge.sums_all? hnormal hmerge
    rw [chain.map_result ih] at hsums
    have hmem : c.catalog.status path part ∈
        (done ++ part :: rest).map (c.catalog.status path) := by simp
    have hdone : ∀ status ∈ done.map (c.catalog.status path),
        status ∈ (done ++ part :: rest).map (c.catalog.status path) := by
      intro status hstatus
      rw [List.map_append]
      exact List.mem_append_left _ hstatus
    rw [Catalog.status_conjunction, Status.conjunction_eq_never (by simpa using hlen)]
    · rfl
    · rw [← ihpart] at hmem
      rcases hsums.of_absorb?_eq_none hclash with hnever | ⟨i, j, hi, hj, hne⟩
      · exact .inl (hnever ▸ hmem)
      · exact .inr ⟨i, j, hdone _ hi, hj ▸ hmem, hne⟩
  | disjunction _ chain hconditions ih =>
    rw [form_attachRequested, status_alternativesCondition hconditions, chain.map_result ih,
      Catalog.status_disjunction]
  | @saturation path _ _ _ _ _ done part rest _ _ _ _ _ _ _ heverything _ ihpart =>
    have halways : Status.always ∈ (done ++ part :: rest).map (c.catalog.status path) := by
      have hpart := Form.status_eq_always.mpr (Condition.form_eq_everything.mpr heverything)
      simp [← hpart, ihpart]
    rw [form_everything, Catalog.status_disjunction, Status.disjunction, if_pos halways]
    rfl

-- The status of a description is the status of the condition that it is compiled to, whatever was
-- compiled before, on whatever variable and however it is sorted.
theorem compile_status_iff (c : Compiler) (hc : c.Standard) (keys : SortKeys) (path : List Page)
    (d : Description) (join : Variable) (target : Option SortTarget) (w : Work) :
    ∃ condition w', (c.compile keys path d join target).run.run w = (.ok condition, w') ∧
      (condition.form = .everything ↔ c.catalog.status path d = .always) ∧
      (condition.form = .nothing ↔ c.catalog.status path d = .never) ∧
      (∀ identity, (∃ r p, condition.form = .singleton r p ∧ r.identity = identity) ↔
        c.catalog.status path d = .only identity) ∧
      ((∃ p, condition.form = .pattern p) ∨ (∃ f, condition.form = .filter f) ∨
        (∃ branches, condition.form = .alternatives branches) ↔
        c.catalog.status path d = .depends) := by
  obtain ⟨condition, w', hrun, h⟩ := compile_run hc path d join target w
  rw [← h.status]
  exact ⟨condition, w', hrun, Form.status_eq_always.symm, Form.status_eq_never.symm,
    fun _ => Form.status_eq_only.symm, Form.status_eq_depends.symm⟩

-- One person is named twice, once beside a concept that is defined by itself.
theorem compile_status_iff_lovelace :
    let loop : Page := ⟨"Loop", 108⟩
    let named (title : String) : Description :=
      .value { key := "Name" } .eq (.page (.page ⟨title, 0⟩))
    let c : Compiler := { catalog := ({} : Catalog).addConcept loop (.concept loop) }
    let d : Description := .conjunction
      [named "Ada Lovelace", .disjunction [.concept loop, named " Ada_Lovelace"]]
    c.Standard ∧ ∃ condition w',
      (c.compile ∅ [] d ⟨"result"⟩ none).run.run {} = (.ok condition, w') ∧
      ∃ r p, condition.form = .singleton r p ∧ r.identity = "wiki:Ada_Lovelace" := by
  intro loop named c d
  have hc : c.Standard := standard_of_builders rfl
  have hloop : c.catalog.enter? [] loop = some (.concept loop) := rfl
  have hagain : c.catalog.enter? [loop] loop = none := rfl
  have hstatus : c.catalog.status [] d = .only "wiki:Ada_Lovelace" := by
    rw [Catalog.status_conjunction, List.map_cons, List.map_cons, List.map_nil,
      Catalog.status_disjunction, List.map_cons, List.map_cons, List.map_nil,
      Catalog.status_concept hloop, Catalog.status_noConcept hagain, Catalog.status,
      Catalog.status]
    decide +kernel
  obtain ⟨condition, w', hrun, -, -, honly, -⟩ :=
    compile_status_iff c hc ∅ [] d ⟨"result"⟩ none {}
  exact ⟨hc, condition, w', hrun, (honly _).mpr hstatus⟩

end Compiler

end WikiQuery
