import Mathlib.Data.List.Basic
import WikiQuery.Proofs.Compile.SortVariables
import WikiQuery.Proofs.KeyMap

namespace WikiQuery

-- What conditions are less some of what they say: a map on clauses, which leaves tests alone and
-- reaches into unions, and a map on what goes along with conditions, which leaves vocabularies
-- alone and can be done before or after a merge.
structure Erasure where
  clause : Clause → Clause
  attachments : Attachments Condition → Attachments Condition
  clause_filter (f : Filter) : clause (.filter f) = .filter f
  clause_union (groups : List Pattern) :
    clause (.union groups) = .union (groups.map (List.map clause))
  attachments_empty : attachments {} = {}
  attachments_merge (a b : Attachments Condition) :
    attachments (a.merge b) = (attachments a).merge (attachments b)
  attachments_safe (a : Attachments Condition) (safe : Bool) :
    attachments { a with safe } = { attachments a with safe }
  attachments_declare (a : Attachments Condition) (v : Vocabulary) :
    attachments { a with vocabularies := a.vocabularies.insertNew v.label v.uri } =
      { attachments a with
        vocabularies := (attachments a).vocabularies.insertNew v.label v.uri }

namespace Erasure

variable (e : Erasure)

def pattern (p : Pattern) : Pattern := p.map e.clause

theorem pattern_append (p q : Pattern) : e.pattern (p ++ q) = e.pattern p ++ e.pattern q :=
  List.map_append

theorem pattern_addFilter (p : Pattern) (f : Filter) :
    e.pattern (p.addFilter f) = (e.pattern p).addFilter f := by
  unfold Pattern.addFilter
  by_cases hf : f.isEmpty = true
  · rw [if_pos hf, if_pos hf]
  · rw [if_neg hf, if_neg hf, pattern_append, pattern, pattern, List.map_singleton,
      e.clause_filter]

theorem isEmpty_pattern (p : Pattern) : (e.pattern p).isEmpty = p.isEmpty :=
  List.isEmpty_map

end Erasure

namespace Condition

-- What is left of a condition, in all its branches.
def erase (e : Erasure) : Condition → Condition
  | ⟨form, a⟩ =>
    ⟨match form with
      | .everything => .everything
      | .nothing => .nothing
      | .pattern p => .pattern (e.pattern p)
      | .filter f => .filter f
      | .singleton r p => .singleton r (e.pattern p)
      | .alternatives branches => .alternatives (branches.map (erase e)),
      e.attachments a⟩
decreasing_by exact sizeOf_branch_lt ‹_›

end Condition

def Erasure.form (e : Erasure) : Form Condition → Form Condition
  | .everything => .everything
  | .nothing => .nothing
  | .pattern p => .pattern (e.pattern p)
  | .filter f => .filter f
  | .singleton r p => .singleton r (e.pattern p)
  | .alternatives branches => .alternatives (branches.map (Condition.erase e))

namespace Condition

variable (e : Erasure)

theorem erase_eq (b : Condition) : b.erase e = ⟨e.form b.form, e.attachments b.attachments⟩ := by
  obtain ⟨form, a⟩ := b
  cases form <;> simp [erase, Erasure.form]

@[simp] theorem attachments_erase (b : Condition) :
    (b.erase e).attachments = e.attachments b.attachments := by
  rw [erase_eq]

theorem everything_erase : everything.erase e = everything := by
  rw [erase_eq]
  exact congrArg (mk _) e.attachments_empty

theorem nothing_erase : nothing.erase e = nothing := by
  rw [erase_eq]
  exact congrArg (mk _) e.attachments_empty

theorem ofPattern_erase (p : Pattern) : (ofPattern p).erase e = ofPattern (e.pattern p) := by
  rw [erase_eq]
  exact congrArg (mk _) e.attachments_empty

theorem ofFilter_erase (f : Filter) : (ofFilter f).erase e = ofFilter f := by
  rw [erase_eq]
  exact congrArg (mk _) e.attachments_empty

theorem singleton_erase (r : Resource) :
    erase e ⟨.singleton r [], { safe := true }⟩ = ⟨.singleton r [], { safe := true }⟩ := by
  rw [erase_eq, e.attachments_safe {} true, e.attachments_empty]
  rfl

theorem withSafe_erase (b : Condition) (safe : Bool) :
    (b.withSafe safe).erase e = (b.erase e).withSafe safe := by
  rw [erase_eq, erase_eq]
  exact congrArg (mk _) (e.attachments_safe b.attachments safe)

theorem declare_erase (b : Condition) (v : Vocabulary) :
    (b.declare v).erase e = (b.erase e).declare v := by
  rw [erase_eq, erase_eq]
  exact congrArg (mk _) (e.attachments_declare b.attachments v)

@[simp] theorem isNothing_erase (b : Condition) : (b.erase e).isNothing = b.isNothing := by
  rw [erase_eq]
  unfold isNothing
  cases b.form <;> rfl

@[simp] theorem isEverything_erase (b : Condition) :
    (b.erase e).isEverything = b.isEverything := by
  rw [erase_eq]
  unfold isEverything
  cases b.form <;> rfl

@[simp] theorem bound?_erase (b : Condition) : (b.erase e).bound? = b.bound? := by
  rw [erase_eq]
  unfold bound?
  cases b.form <;> rfl

theorem toPattern?_erase (b : Condition) (join : Variable) :
    (b.erase e).toPattern? join = (b.toPattern? join).map e.pattern := by
  induction b using nested_induction with
  | node form a ih _ =>
    rw [erase_eq, toPattern?, toPattern?]
    cases form with
    | everything => rfl
    | nothing => rfl
    | pattern p => rfl
    | filter f => exact congrArg some (e.pattern_addFilter [] f).symm
    | singleton r p => exact congrArg some (e.pattern_addFilter p [.binds join r]).symm
    | alternatives branches =>
      have hpatterns : (branches.map (erase e)).filterMap (toPattern? join) =
          (branches.filterMap (toPattern? join)).map e.pattern := by
        rw [List.filterMap_map, List.map_filterMap]
        exact List.filterMap_congr ih
      simp only [Erasure.form, formPattern?, branchPatterns_eq_filterMap, hpatterns,
        Option.map_some]
      rw [Erasure.pattern, List.map_singleton, e.clause_union]
      rfl

end Condition

namespace Merge

variable {join : Variable}

def erase (e : Erasure) (m : Merge) : Merge :=
  { m with pattern := e.pattern m.pattern, attachments := e.attachments m.attachments }

variable (e : Erasure)

theorem conflict?_erase (m : Merge) (b : Condition) :
    (m.erase e).conflict? (b.erase e) = m.conflict? b := by
  unfold conflict?
  rw [Condition.bound?_erase]
  rfl

-- Whether and how a condition is taken in is up to its form.
theorem absorb?_erase (m : Merge) (b : Condition) :
    (m.erase e).absorb? join (b.erase e) = (m.absorb? join b).map (erase e) := by
  have hpattern := b.toPattern?_erase e join
  have ha := e.attachments_merge m.attachments b.attachments
  unfold absorb?
  rw [conflict?_erase]
  by_cases hconflict : (m.conflict? b).isSome = true
  · rw [if_pos hconflict, if_pos hconflict]
    rfl
  · rw [if_neg hconflict, if_neg hconflict]
    rw [Condition.erase_eq] at hpattern ⊢
    obtain ⟨form, a⟩ := b
    cases form with
    | everything => simp [Erasure.form, erase, ha]
    | nothing => rfl
    | pattern p => simp [Erasure.form, erase, ha, e.pattern_append]
    | filter f => simp [Erasure.form, erase, ha]
    | singleton r p => simp [Erasure.form, erase, ha, e.pattern_append]
    | alternatives branches =>
      have hunion :
          [Clause.union (Condition.branchPatterns join (branches.map (Condition.erase e)))] =
            e.pattern [.union (Condition.branchPatterns join branches)] :=
        Option.some.inj hpattern
      simp only [Erasure.form, erase, Option.map_some, e.pattern_append, hunion, ha]

theorem all?_erase (conditions : List Condition) :
    all? join (conditions.map (Condition.erase e)) = (all? join conditions).map (erase e) := by
  have hfold : ∀ m : Merge,
      (conditions.map (Condition.erase e)).foldlM (absorb? join) (m.erase e) =
        (conditions.foldlM (absorb? join) m).map (erase e) := by
    induction conditions with
    | nil => exact fun _ => rfl
    | cons b rest ih =>
      intro m
      rw [List.map_cons, List.foldlM_cons, List.foldlM_cons, absorb?_erase]
      cases m.absorb? join b with
      | none => rfl
      | some m₁ => exact ih m₁
  have hempty : erase e {} = {} := congrArg (Merge.mk [] [] none) e.attachments_empty
  have hall := hfold {}
  rw [hempty] at hall
  exact hall

theorem form_erase (m : Merge) : (m.erase e).form = e.form m.form := by
  have hempty := e.isEmpty_pattern m.pattern
  have hadd := e.pattern_addFilter m.pattern m.filter
  unfold form
  cases hbound : m.bound with
  | some r => simp [erase, hbound, Erasure.form, hadd]
  | none =>
    simp only [erase, hbound, hempty, ← hadd]
    by_cases hp : m.pattern.isEmpty = true
    · by_cases hf : m.filter.isEmpty = true
      · simp only [hp, hf, if_true, Erasure.form]
      · simp only [hp, hf, if_true, Erasure.form]
        rfl
    · simp only [hp]
      rfl

theorem finish_erase (m : Merge) : (m.erase e).finish = m.finish.erase e := by
  rw [Condition.erase_eq]
  exact congrArg (Condition.mk · (e.attachments m.attachments)) (m.form_erase e)

end Merge

namespace Compiler

section Alternatives

variable (e : Erasure)

theorem alternativesCondition_erase (branches : List Condition) :
    alternativesCondition (branches.map (Condition.erase e)) =
      (alternativesCondition branches).erase e := by
  have hmerged : ∀ a : Attachments Condition,
      (branches.map (Condition.erase e)).foldl (fun a b => a.merge b.attachments)
          (e.attachments a) =
        e.attachments (branches.foldl (fun a b => a.merge b.attachments) a) := by
    induction branches with
    | nil => exact fun _ => rfl
    | cons b rest ih =>
      intro a
      rw [List.map_cons, List.foldl_cons, List.foldl_cons, ← ih, e.attachments_merge,
        Condition.attachments_erase]
  have hall := hmerged {}
  rw [e.attachments_empty] at hall
  rcases branches with _ | ⟨first, _ | ⟨second, rest⟩⟩
  · exact (Condition.nothing_erase e).symm
  · rfl
  · rw [Condition.erase_eq]
    exact congrArg (Condition.mk _) hall

theorem filter_erase (conditions : List Condition) :
    (conditions.map (Condition.erase e)).filter (!·.isNothing) =
      (conditions.filter (!·.isNothing)).map (Condition.erase e) := by
  rw [List.filter_map]
  congr 1
  apply List.filter_congr
  simp

theorem isEverything_erase_of_mem {conditions : List Condition}
    (h : ∀ b ∈ conditions, b.isEverything = false) :
    ∀ b ∈ conditions.map (Condition.erase e), b.isEverything = false := by
  simpa using h

end Alternatives

end Compiler

-- A second compiler gives what is left of the conditions of the first one: it knows the same wiki,
-- attaches its own sorts to what is left of conditions, and keeps some of the progress only.
structure Erasure.Commutes (e : Erasure) (c c' : Compiler) (keys keys' : SortKeys)
    (f : Progress → Progress) : Prop where
  catalog : c'.catalog = c.catalog
  fields : c'.fields = c.fields
  attachSort (join : Variable) (target : Option SortTarget) (datatype : Datatype)
    (condition : Condition) :
    c'.attachSort keys' join target datatype (condition.erase e) =
      (c.attachSort keys join target datatype condition).erase e
  inNamespace (join : Variable) (number : Int32) :
    e.clause (.inNamespace join number) = .inNamespace join number
  inCategory {s s' : Progress} {ids : List Nat} {closure : Option SubqueryId} :
    s.close c.settings.categoryDepth (.categories ids c.settings.categoryDepth) = (closure, s') →
    ∃ closure', (f s).close c'.settings.categoryDepth
        (.categories ids c'.settings.categoryDepth) = (closure', f s') ∧
      ∀ join, e.clause (.inCategory join ids closure) = .inCategory join ids closure'
  opening {join v : Variable} {p : Property} {info : PropertyInfo} {s s₁ : Progress}
    {clause : Clause} : c.opening join p info s = ((clause, v), s₁) →
    c'.opening join p info (f s) = ((e.clause clause, v), f s₁)
  rollback (s t : Progress) :
    (f s).rollback (f t).subqueries.size = f (s.rollback t.subqueries.size)

namespace Compiler

variable {e : Erasure} {c c' : Compiler} {keys keys' : SortKeys} {f : Progress → Progress}
  {join : Variable} {target target' : Option SortTarget}

theorem attachSort_empty {datatype : Datatype} {condition : Condition} :
    c.attachSort ∅ join target datatype condition = condition :=
  attachSort_of_unrequested (by simp)

-- The target does not matter where no sort is requested.
theorem attachSort_retarget (h : target' = target ∨ keys = ∅) (datatype : Datatype)
    (condition : Condition) :
    c.attachSort keys join target' datatype condition =
      c.attachSort keys join target datatype condition := by
  rcases h with rfl | rfl
  · rfl
  · rw [attachSort_empty, attachSort_empty]

theorem attachRequested_retarget (h : target' = target ∨ keys = ∅) (condition : Condition) :
    c.attachRequested keys join target' condition =
      c.attachRequested keys join target condition := by
  rcases h with rfl | rfl
  · rfl
  · unfold attachRequested
    rw [attachSort_empty, attachSort_empty]

section Leaves

variable (h : e.Commutes c c' keys keys' f) (htarget : target' = target ∨ keys' = ∅)
include h htarget

theorem attachSort_erase (datatype : Datatype) (condition : Condition) :
    c'.attachSort keys' join target' datatype (condition.erase e) =
      (c.attachSort keys join target datatype condition).erase e := by
  rw [attachSort_retarget htarget, h.attachSort]

theorem attachRequested_erase (condition : Condition) :
    c'.attachRequested keys' join target' (condition.erase e) =
      (c.attachRequested keys join target condition).erase e := by
  rw [attachRequested_retarget htarget]
  exact h.attachSort join target _ condition

theorem everything_erase :
    c'.everything keys' join target' = (c.everything keys join target).erase e := by
  unfold everything
  rw [← attachRequested_erase h htarget, Condition.everything_erase]

theorem clauseCondition_erase (join : Variable) (clause : Clause) :
    c'.attachSort keys' join target' .page
        ((Condition.ofPattern [e.clause clause]).withSafe true) =
      (c.attachSort keys join target .page
        ((Condition.ofPattern [clause]).withSafe true)).erase e := by
  rw [← attachSort_erase h htarget, Condition.withSafe_erase, Condition.ofPattern_erase]
  rfl

theorem comparedCondition_erase (p : Property) (comparator : Comparator) (x : Value) :
    c'.comparedCondition keys' join target' p comparator x =
      (c.comparedCondition keys join target p comparator x).erase e := by
  have hsame : c'.valueCondition? join p comparator x = c.valueCondition? join p comparator x := by
    unfold valueCondition? comparison matching
    rw [h.fields]
  unfold comparedCondition
  rw [← attachSort_erase h htarget, hsame]
  congr 1
  cases hvalue : c.valueCondition? join p comparator x with
  | none => exact (Condition.everything_erase e).symm
  | some condition =>
    have hcondition : condition.erase e = condition := by
      rcases valueCondition?_cases hvalue with ⟨r, rfl⟩ | ⟨test, rfl, -⟩
      · exact Condition.singleton_erase e r
      · exact Condition.ofFilter_erase e [test]
    dsimp only
    unfold declareValue
    cases x.resource? >>= Resource.vocabulary? with
    | none => exact hcondition.symm
    | some v =>
      dsimp only
      rw [Condition.declare_erase, hcondition]

theorem propertyCondition_erase (p : Property) (clause : Clause) (inner : Condition)
    (group : Pattern) :
    c'.propertyCondition keys' join target' p (e.clause clause) (inner.erase e)
        (e.pattern group) =
      (c.propertyCondition keys join target p clause inner group).erase e := by
  have hcondition : Condition.erase e ⟨.pattern (clause :: group),
      { inner.attachments with safe := true }⟩ = ⟨.pattern (e.clause clause :: e.pattern group),
        { (inner.erase e).attachments with safe := true }⟩ := by
    rw [Condition.erase_eq, e.attachments_safe, Condition.attachments_erase]
    rfl
  unfold propertyCondition
  rw [← attachSort_erase h htarget]
  apply congrArg (c'.attachSort keys' join target' .page)
  cases p.vocabulary with
  | none => exact hcondition.symm
  | some v =>
    dsimp only
    rw [Condition.declare_erase, hcondition]

end Leaves

-- What is compiled is, less what is erased, what the second compiler compiles.
theorem Compiles.erase (h : e.Commutes c c' keys keys' f) {path : List Page} {d : Description}
    {s s' : Progress} {condition : Condition}
    (hcompiles : Compiles c keys path d join target s condition s')
    (htarget : target' = target ∨ keys' = ∅) :
    Compiles c' keys' path d join target' (f s) (condition.erase e) (f s') := by
  have hnothing := Condition.nothing_erase e
  have hcatalog := h.catalog
  induction hcompiles generalizing target' with
  | thing =>
    rw [← everything_erase h htarget]
    exact .thing
  | @inNamespace _ join _ _ number =>
    have hclause := clauseCondition_erase h htarget join (.inNamespace join number)
    rw [h.inNamespace] at hclause
    unfold namespaceCondition
    rw [← hclause]
    exact .inNamespace number
  | noCategory hnone =>
    rw [hnothing]
    exact .noCategory (by rw [hcatalog, hnone])
  | @inCategory _ join _ _ _ categories closure hsome hclose =>
    obtain ⟨closure', hclose', hclause⟩ := h.inCategory hclose
    have hcondition := clauseCondition_erase h htarget join
      (.inCategory join (c.catalog.known categories) closure)
    rw [hclause] at hcondition
    unfold categoryCondition
    rw [← hcondition, ← hcatalog]
    rw [← hcatalog] at hsome hclose'
    exact .inCategory hsome hclose'
  | noConcept hnone =>
    rw [hnothing]
    exact .noConcept (by rw [hcatalog, hnone])
  | concept hsome _ ih => exact .concept (by rw [hcatalog, hsome]) (ih htarget)
  | value p comparator x =>
    rw [← comparedCondition_erase h htarget]
    exact .value p comparator x
  | noProperty hnone =>
    rw [hnothing]
    exact .noProperty (by rw [hcatalog, hnone])
  | someProperty hp hopen _ hgroup ih =>
    rw [← propertyCondition_erase h htarget]
    refine .someProperty (by rw [hcatalog, hp]) (h.opening hopen) (ih (.inl rfl)) ?_
    rw [Condition.toPattern?_erase, hgroup]
    rfl
  | emptyProperty hp hopen _ hgroup ih =>
    rw [hnothing, ← h.rollback]
    refine .emptyProperty (by rw [hcatalog, hp]) (h.opening hopen) (ih (.inl rfl)) ?_
    rw [Condition.toPattern?_erase, hgroup]
    rfl
  | conjunctionNone =>
    rw [← everything_erase h htarget]
    exact .conjunctionNone
  | conjunctionOne _ ih => exact .conjunctionOne (ih htarget)
  | @conjunction _ join _ _ _ _ conditions merged _ hlen _ chain hmerge ih =>
    have hparts := chain.project fun part s b s' hpart => ih part s b s' hpart (.inl rfl)
    have hmerged : Merge.all? join (conditions.map (Condition.erase e)) = some (merged.erase e) := by
      rw [Merge.all?_erase, hmerge]
      rfl
    rw [← attachRequested_erase h htarget, ← Merge.finish_erase]
    exact .conjunction hlen (fun _ _ _ _ h => h) hparts hmerged
  | @clash _ join _ _ _ _ _ _ _ conditions _ merged _ hlen _ chain hmerge _ hclash ih ihpart =>
    have hdone := chain.project fun part s b s' hpart => ih part s b s' hpart (.inl rfl)
    have hmerged : Merge.all? join (conditions.map (Condition.erase e)) = some (merged.erase e) := by
      rw [Merge.all?_erase, hmerge]
      rfl
    rw [hnothing, ← h.rollback]
    refine .clash hlen (fun _ _ _ _ h => h) hdone hmerged (ihpart (.inl rfl)) ?_
    rw [Merge.absorb?_erase, hclash]
    rfl
  | disjunction _ chain hconditions ih =>
    have hparts := chain.project fun part s b s' hpart => ih part s b s' hpart htarget
    rw [← attachRequested_erase h htarget, ← alternativesCondition_erase, ← filter_erase]
    exact .disjunction (fun _ _ _ _ h => h) hparts (isEverything_erase_of_mem e hconditions)
  | saturation _ chain hconditions _ heverything ih ihpart =>
    have hdone := chain.project fun part s b s' hpart => ih part s b s' hpart htarget
    rw [← everything_erase h htarget, ← h.rollback]
    exact .saturation (fun _ _ _ _ h => h) hdone (isEverything_erase_of_mem e hconditions)
      (ihpart htarget) (by rw [Condition.isEverything_erase, heverything])

end Compiler

end WikiQuery
