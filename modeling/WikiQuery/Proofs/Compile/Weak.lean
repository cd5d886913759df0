import WikiQuery.Proofs.Compile.Leaf
import WikiQuery.Proofs.Condition.Atoms

namespace WikiQuery

theorem Attachments.mem_weak_merge {γ : Type} [BEq γ] {a b : Attachments γ} {w : γ}
    (h : w ∈ (a.merge b).weak) : w ∈ a.weak ∨ w ∈ b.weak := by
  have hfold : ∀ (added kept : List γ),
      w ∈ added.foldl (fun weak w => if weak.contains w then weak else weak ++ [w]) kept →
        w ∈ kept ∨ w ∈ added := by
    intro added
    induction added with
    | nil => exact fun kept hw => .inl hw
    | cons x added ih =>
      intro kept hw
      rcases ih _ hw with hkept | hadded
      · dsimp only at hkept
        split_ifs at hkept
        · exact .inl hkept
        · rcases List.mem_append.mp hkept with hkept | hx
          · exact .inl hkept
          · exact .inr (by simp [List.mem_singleton.mp hx])
      · exact .inr (List.mem_cons_of_mem _ hadded)
  exact hfold b.weak a.weak h

-- Where weak conditions that are equal are the same, merging them loses none and repeats none.
theorem Attachments.weak_merge {γ : Type} [BEq γ] {a b : Attachments γ}
    (h : ∀ x ∈ a.weak ++ b.weak, ∀ y ∈ a.weak ++ b.weak, (x == y) = true ↔ x = y) :
    (∀ w, w ∈ (a.merge b).weak ↔ w ∈ a.weak ∨ w ∈ b.weak) ∧
    (a.weak.Nodup → (a.merge b).weak.Nodup) := by
  have hfold : ∀ (added kept : List γ),
      (∀ x ∈ kept ++ added, ∀ y ∈ kept ++ added, (x == y) = true ↔ x = y) →
      let merged := added.foldl (fun weak w => if weak.contains w then weak else weak ++ [w]) kept
      (∀ w, w ∈ merged ↔ w ∈ kept ∨ w ∈ added) ∧ (kept.Nodup → merged.Nodup) := by
    intro added
    induction added with
    | nil => exact fun kept _ => ⟨by simp, id⟩
    | cons x added ih =>
      intro kept hbeq
      have hcontains : kept.contains x = true ↔ x ∈ kept := by
        rw [List.contains_iff_exists_mem_beq]
        constructor
        · rintro ⟨y, hy, heq⟩
          rw [(hbeq x (by simp) y (by simp [hy])).mp heq]
          exact hy
        · intro hx
          exact ⟨x, hx, (hbeq x (by simp) x (by simp)).mpr rfl⟩
      rw [List.foldl_cons]
      by_cases hx : x ∈ kept
      · rw [if_pos (hcontains.mpr hx)]
        have hrest := ih kept fun y hy z hz => hbeq y (by grind) z (by grind)
        refine ⟨?_, hrest.2⟩
        intro w
        rw [hrest.1 w]
        grind
      · rw [if_neg (mt hcontains.mp hx)]
        have hrest := ih (kept ++ [x]) fun y hy z hz => hbeq y (by simpa using hy) z
          (by simpa using hz)
        refine ⟨?_, ?_⟩
        · intro w
          rw [hrest.1 w]
          simp [or_assoc]
        · intro hkept
          exact hrest.2 (List.nodup_append.mpr ⟨hkept, by simp, by grind⟩)
  exact hfold b.weak a.weak h

namespace Compiler

variable {c : Compiler} {keys : SortKeys} {V : Variable → Prop}

-- A weak condition that binds a variable to what the page of another variable sorts by.
def BindsSortKey (c : Compiler) (w : Condition) : Prop :=
  ∃ v : Variable, w = .ofPattern [.sortKey v (v.withSuffix c.settings.sortSuffix)]

-- All conditions that go along with a condition bind sort keys.
def OnlyBindsSortKeys (c : Compiler) (condition : Condition) : Prop :=
  ∀ w ∈ condition.asides, c.BindsSortKey w

-- The same, where the pages are those of certain variables only.
def SortsOn (c : Compiler) (V : Variable → Prop) (w : Condition) : Prop :=
  ∃ v : Variable, V v ∧ w = .ofPattern [.sortKey v (v.withSuffix c.settings.sortSuffix)]

def OnlySortsOn (c : Compiler) (V : Variable → Prop) (condition : Condition) : Prop :=
  ∀ w ∈ condition.asides, c.SortsOn V w

theorem SortsOn.asides_eq_nil {w : Condition} (h : c.SortsOn V w) : w.asides = [] := by
  obtain ⟨v, -, rfl⟩ := h
  simp [Condition.ofPattern, Condition.asides]

theorem onlySortsOn_iff {condition : Condition} :
    c.OnlySortsOn V condition ↔
      (∀ w ∈ condition.attachments.weak, c.SortsOn V w) ∧
      ∀ b ∈ condition.form.branches, c.OnlySortsOn V b := by
  unfold OnlySortsOn
  rw [Condition.asides_eq]
  constructor
  · intro h
    constructor
    · intro w hw
      exact h w (List.mem_append_left _ (List.mem_flatMap.mpr ⟨w, hw, by simp⟩))
    · intro b hb w hw
      exact h w (List.mem_append_right _ (List.mem_flatMap.mpr ⟨b, hb, hw⟩))
  · intro h w hw
    obtain ⟨hweak, hbranches⟩ := h
    rcases List.mem_append.mp hw with hw | hw
    · obtain ⟨x, hx, hw⟩ := List.mem_flatMap.mp hw
      rw [(hweak x hx).asides_eq_nil] at hw
      rw [List.mem_singleton.mp hw]
      exact hweak x hx
    · obtain ⟨b, hb, hw⟩ := List.mem_flatMap.mp hw
      exact hbranches b hb w hw

theorem OnlySortsOn.weak {condition : Condition} (h : c.OnlySortsOn V condition) :
    ∀ w ∈ condition.attachments.weak, c.SortsOn V w :=
  (onlySortsOn_iff.mp h).1

-- Without weak conditions and without branches there is nothing to check.
theorem onlySortsOn_of_weak {condition : Condition}
    (hform : condition.form.branches = [])
    (hweak : ∀ w ∈ condition.attachments.weak, c.SortsOn V w) :
    c.OnlySortsOn V condition :=
  onlySortsOn_iff.mpr ⟨hweak, by simp [hform]⟩

theorem OnlySortsOn.attachSort {join : Variable} {target : Option SortTarget}
    {datatype : Datatype} {condition : Condition} (hjoin : V join)
    (h : c.OnlySortsOn V condition) :
    c.OnlySortsOn V (c.attachSort keys join target datatype condition) := by
  refine onlySortsOn_iff.mpr ⟨?_, ?_⟩
  · have hweak := h.weak
    unfold Compiler.attachSort
    cases target with
    | none => exact hweak
    | some target =>
      dsimp only
      split_ifs
      · exact hweak
      · intro w hw
        rcases List.mem_append.mp hw with hw | hw
        · exact hweak w hw
        · exact ⟨join, hjoin, List.mem_singleton.mp hw⟩
      · exact hweak
  · rw [form_attachSort]
    exact (onlySortsOn_iff.mp h).2

theorem onlySortsOn_finish {m : Merge} (h : ∀ w ∈ m.attachments.weak, c.SortsOn V w) :
    c.OnlySortsOn V m.finish := by
  apply onlySortsOn_of_weak _ h
  unfold Merge.finish Merge.form
  dsimp only
  split
  · rfl
  · split_ifs <;> rfl

theorem sortsOn_absorb? {join : Variable} {m m' : Merge} {condition : Condition}
    (hm : ∀ w ∈ m.attachments.weak, c.SortsOn V w)
    (hcondition : ∀ w ∈ condition.attachments.weak, c.SortsOn V w)
    (h : m.absorb? join condition = some m') : ∀ w ∈ m'.attachments.weak, c.SortsOn V w := by
  obtain ⟨p, f, rfl, -⟩ := Merge.absorb?_cases h
  intro w hw
  rcases Attachments.mem_weak_merge hw with hw | hw
  · exact hm w hw
  · exact hcondition w hw

theorem sortsOn_all? {join : Variable} {conditions : List Condition} {m : Merge}
    (hconditions : ∀ condition ∈ conditions, c.OnlySortsOn V condition)
    (h : Merge.all? join conditions = some m) :
    ∀ w ∈ m.attachments.weak, c.SortsOn V w := by
  refine Merge.all_induction (P := fun done m =>
    (∀ condition ∈ done, c.OnlySortsOn V condition) →
      ∀ w ∈ m.attachments.weak, c.SortsOn V w) (by simp) ?_ h hconditions
  intro done m condition m' hdone habsorb hall
  obtain ⟨hbefore, hlast⟩ := List.forall_mem_append.mp hall
  exact sortsOn_absorb? (hdone hbefore) (hlast condition (by simp)).weak habsorb

theorem onlySortsOn_alternatives {branches : List Condition}
    (h : ∀ b ∈ branches, c.OnlySortsOn V b) :
    c.OnlySortsOn V (alternativesCondition branches) := by
  match branches with
  | [] => exact onlySortsOn_of_weak rfl (by simp [alternativesCondition, Condition.nothing])
  | [branch] => exact h branch (by simp)
  | first :: second :: rest =>
    have hfold : ∀ (branches : List Condition) (a : Attachments Condition),
        (∀ b ∈ branches, c.OnlySortsOn V b) → (∀ w ∈ a.weak, c.SortsOn V w) →
          ∀ w ∈ (branches.foldl (fun a b => a.merge b.attachments) a).weak, c.SortsOn V w := by
      intro branches
      induction branches with
      | nil => exact fun a _ ha => ha
      | cons b rest ih =>
        intro a hbranches ha
        apply ih _ (fun b hb => hbranches b (List.mem_cons_of_mem _ hb))
        intro w hw
        rcases Attachments.mem_weak_merge hw with hw | hw
        · exact ha w hw
        · exact (hbranches b (by simp)).weak w hw
    exact onlySortsOn_iff.mpr ⟨hfold (first :: second :: rest) {} h (by simp), h⟩

theorem onlySortsOn_compared {join : Variable} (hjoin : V join) (target : Option SortTarget)
    (p : Property) (comparator : Comparator) (x : Value) :
    c.OnlySortsOn V (c.comparedCondition keys join target p comparator x) := by
  obtain ⟨condition, heq, hweak, -, hform⟩ :=
    c.comparedCondition_cases keys join target p comparator x
  rw [heq]
  apply OnlySortsOn.attachSort hjoin
  apply onlySortsOn_of_weak
  · rcases hform with hform | ⟨r, hform⟩ | ⟨test, hform, -⟩ <;> rw [hform] <;> rfl
  · simp [hweak]

theorem onlySortsOn_property {join : Variable} {target : Option SortTarget} {p : Property}
    {clause : Clause} {inner : Condition} {group : Pattern} (hjoin : V join)
    (h : c.OnlySortsOn V inner) :
    c.OnlySortsOn V (c.propertyCondition keys join target p clause inner group) := by
  unfold propertyCondition
  apply OnlySortsOn.attachSort hjoin
  cases p.vocabulary with
  | none => exact onlySortsOn_of_weak rfl h.weak
  | some v => exact onlySortsOn_of_weak rfl h.weak

-- Whatever is compiled, the conditions that go along with it only bind sort keys, of the variable
-- it is compiled for and of fresh ones.
theorem Compiles.onlySortsOn {path : List Page} {d : Description} {join : Variable}
    {target : Option SortTarget} {s s' : Progress} {condition : Condition}
    (h : Compiles c keys path d join target s condition s')
    (hnumbered : ∀ n, 1 ≤ n → V (c.numbered n)) (hjoin : V join) : c.OnlySortsOn V condition := by
  have hnothing : c.OnlySortsOn V .nothing :=
    onlySortsOn_of_weak rfl (by simp [Condition.nothing])
  have heverything : ∀ {join} target, V join → c.OnlySortsOn V (c.everything keys join target) :=
    fun _ hjoin => (onlySortsOn_of_weak rfl (by simp [Condition.everything])).attachSort hjoin
  induction h with
  | thing => exact heverything _ hjoin
  | inNamespace number =>
    exact (onlySortsOn_of_weak rfl (by simp [Condition.withSafe, Condition.withAttachments,
      Condition.ofPattern])).attachSort hjoin
  | noCategory _ => exact hnothing
  | inCategory _ _ =>
    exact (onlySortsOn_of_weak rfl (by simp [Condition.withSafe, Condition.withAttachments,
      Condition.ofPattern])).attachSort hjoin
  | noConcept _ => exact hnothing
  | concept _ _ ih => exact ih hjoin
  | value p comparator x => exact onlySortsOn_compared hjoin _ p comparator x
  | noProperty _ => exact hnothing
  | someProperty _ hopen _ _ ih =>
    apply onlySortsOn_property hjoin
    obtain ⟨closure, s₀, -, ⟨-, rfl, -⟩ | ⟨-, rfl, -⟩⟩ := opening_cases hopen
    · exact ih (hnumbered _ (Nat.le_add_left 1 _))
    · exact ih hjoin
  | emptyProperty _ _ _ _ _ => exact hnothing
  | conjunctionNone => exact heverything _ hjoin
  | conjunctionOne _ ih => exact ih hjoin
  | conjunction _ _ chain hmerge ih =>
    have hparts := chain.forall_result fun part s b s' h => ih part s b s' h hjoin
    exact (onlySortsOn_finish (sortsOn_all? hparts hmerge)).attachSort hjoin
  | clash _ _ _ _ _ _ _ _ => exact hnothing
  | disjunction _ chain _ ih =>
    have hparts := chain.forall_result fun part s b s' h => ih part s b s' h hjoin
    exact (onlySortsOn_alternatives fun b hb =>
      hparts b (List.mem_filter.mp hb).1).attachSort hjoin
  | saturation _ _ _ _ _ _ _ => exact heverything _ hjoin

theorem Compiles.onlyBindsSortKeys {path : List Page} {d : Description} {join : Variable}
    {target : Option SortTarget} {s s' : Progress} {condition : Condition}
    (h : Compiles c keys path d join target s condition s') : c.OnlyBindsSortKeys condition := by
  intro w hw
  obtain ⟨v, -, rfl⟩ := h.onlySortsOn (V := fun _ => True) (fun _ _ => trivial) trivial w hw
  exact ⟨v, rfl⟩

end Compiler

end WikiQuery
