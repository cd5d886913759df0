import WikiQuery.Proofs.Condition.Compatible
import WikiQuery.Proofs.Condition.Same
import WikiQuery.Proofs.KeyMap

namespace WikiQuery

namespace Attachments

variable {P : Attachments Condition → Prop} {a b : Attachments Condition} {w : Condition}

-- What two attachments have together just if one of them has it, many have together just if one of
-- them has it.
theorem foldl_merge_iff (hP : ∀ a b : Attachments Condition, P (a.merge b) ↔ P a ∨ P b)
    (conditions : List Condition) (a : Attachments Condition) :
    P (conditions.foldl (fun a c => a.merge c.attachments) a) ↔
      P a ∨ ∃ c ∈ conditions, P c.attachments := by
  induction conditions generalizing a with
  | nil => simp
  | cons c rest ih =>
    rw [List.foldl_cons, ih, hP]
    simp [or_assoc]

theorem foldl_merge_perm (hP : ∀ a b : Attachments Condition, P (a.merge b) ↔ P a ∨ P b)
    {conditions conditions' : List Condition} (h : conditions.Perm conditions')
    (a : Attachments Condition) :
    P (conditions.foldl (fun a c => a.merge c.attachments) a) ↔
      P (conditions'.foldl (fun a c => a.merge c.attachments) a) := by
  rw [foldl_merge_iff hP, foldl_merge_iff hP]
  simp only [h.mem_iff]

-- A weak condition goes along, or one that equals it.
def HasWeak (a : Attachments Condition) (w : Condition) : Prop :=
  ∃ w' ∈ a.weak, w' = w ∨ (w' == w) = true

-- A weak condition is left out only where one that equals it is there already.
theorem hasWeak_merge : (a.merge b).HasWeak w ↔ a.HasWeak w ∨ b.HasWeak w := by
  have hfold : ∀ added kept : List Condition,
      (∃ w' ∈ added.foldl (fun weak w => if weak.contains w then weak else weak ++ [w]) kept,
        w' = w ∨ (w' == w) = true) ↔
      (∃ w' ∈ kept, w' = w ∨ (w' == w) = true) ∨ ∃ w' ∈ added, w' = w ∨ (w' == w) = true := by
    intro added
    induction added with
    | nil => simp
    | cons x rest ih =>
      intro kept
      rw [List.foldl_cons, ih]
      by_cases hx : kept.contains x = true
      · have hkept : x = w ∨ (x == w) = true → ∃ w' ∈ kept, w' = w ∨ (w' == w) = true := by
          intro hxw
          obtain ⟨y, hy, hxy⟩ := List.contains_iff_exists_mem_beq.mp hx
          refine ⟨y, hy, .inr ?_⟩
          rcases hxw with rfl | hxw
          · exact BEq.symm hxy
          · exact BEq.trans (BEq.symm hxy) hxw
        rw [if_pos hx, List.exists_mem_cons_iff]
        constructor
        · exact Or.imp_right .inr
        · rintro (hw | hxw | hw)
          · exact .inl hw
          · exact .inl (hkept hxw)
          · exact .inr hw
      · rw [if_neg hx, List.exists_mem_cons_iff, ← or_assoc]
        simp only [List.mem_append, List.mem_singleton, or_and_right, exists_or, exists_eq_left]
  exact hfold b.weak a.weak

end Attachments

-- The forms of two merges that end with a filter each: their clauses before it and the tests in it
-- are the same but for the order, and a resource is the same but for its spelling.
inductive Form.Reordered : Filter → Filter → Form Condition → Form Condition → Prop where
  | everything : Reordered [] [] .everything .everything
  | filter {f f' : Filter} : f.Perm f' → Reordered f f' (.filter f) (.filter f')
  | pattern {p p' : Pattern} {f f' : Filter} : p.Perm p' → f.Perm f' →
    Reordered f f' (.pattern (p.addFilter f)) (.pattern (p'.addFilter f'))
  | singleton {r r' : Resource} {p p' : Pattern} {f f' : Filter} : r.identity = r'.identity →
    p.Perm p' → f.Perm f' →
    Reordered f f' (.singleton r (p.addFilter f)) (.singleton r' (p'.addFilter f'))

namespace Condition

-- Conditions that two merges end with, less the order: what goes along with them has the same
-- labels and sort keys, and the same weak conditions.
structure Reordered (f f' : Filter) (c c' : Condition) : Prop where
  form : c.form.Reordered f f' c'.form
  safe : c.safe = c'.safe
  vocabularies : ∀ label, c.attachments.vocabularies.contains label =
    c'.attachments.vocabularies.contains label
  sortVariables : ∀ key, c.attachments.sortVariables.contains key =
    c'.attachments.sortVariables.contains key
  weak : ∀ w, c.attachments.HasWeak w ↔ c'.attachments.HasWeak w

variable {conditions conditions' : List Condition}

theorem Compatible.perm (h : Compatible conditions) (hperm : conditions.Perm conditions') :
    Compatible conditions' where
  possible := by
    intro c hc
    exact h.possible c (hperm.mem_iff.mpr hc)
  agree := by
    intro c hc d hd
    exact h.agree c (hperm.mem_iff.mpr hc) d (hperm.mem_iff.mpr hd)

-- Whichever of them comes first, conditions that agree bind the variable to one resource.
theorem Compatible.identity_perm (h : Compatible conditions) (hperm : conditions.Perm conditions') :
    (conditions.findSome? bound?).map Resource.identity =
      (conditions'.findSome? bound?).map Resource.identity := by
  cases hfound : conditions.findSome? bound? with
  | none =>
    have hnone : ∀ c ∈ conditions', c.bound? = none := by
      intro c hc
      exact List.findSome?_eq_none_iff.mp hfound c (hperm.mem_iff.mpr hc)
    rw [List.findSome?_eq_none_iff.mpr hnone]
  | some r =>
    obtain ⟨c, hc, hr⟩ := List.exists_of_findSome?_eq_some hfound
    cases hfound' : conditions'.findSome? bound? with
    | none =>
      rw [List.findSome?_eq_none_iff.mp hfound' c (hperm.mem_iff.mp hc)] at hr
      cases hr
    | some t =>
      obtain ⟨d, hd, ht⟩ := List.exists_of_findSome?_eq_some hfound'
      exact congrArg some (h.agree c hc d (hperm.mem_iff.mpr hd) r t hr ht)

end Condition

namespace Merge

variable {join : Variable} {m m' : Merge} {conditions conditions' : List Condition}

theorem form_reordered (hpattern : m.pattern.Perm m'.pattern) (hfilter : m.filter.Perm m'.filter)
    (hbound : m.bound.map Resource.identity = m'.bound.map Resource.identity) :
    m.form.Reordered m.filter m'.filter m'.form := by
  unfold form
  cases hm : m.bound with
  | some r =>
    cases hm' : m'.bound with
    | none =>
      rw [hm, hm'] at hbound
      cases hbound
    | some t =>
      rw [hm, hm'] at hbound
      exact .singleton (Option.some.inj hbound) hpattern hfilter
  | none =>
    cases hm' : m'.bound with
    | some t =>
      rw [hm, hm'] at hbound
      cases hbound
    | none =>
      dsimp only
      rw [hpattern.isEmpty_eq, hfilter.isEmpty_eq]
      split_ifs with hp hf
      · have hempty' : m'.filter = [] := List.isEmpty_iff.mp hf
        have hempty : m.filter = [] := (hempty' ▸ hfilter).eq_nil
        rw [hempty, hempty']
        exact .everything
      · exact .filter hfilter
      · exact .pattern hpattern hfilter

theorem gathered_reordered (hcompatible : Condition.Compatible conditions)
    (h : conditions.Perm conditions') :
    (gathered join conditions).finish.Reordered (gathered join conditions).filter
      (gathered join conditions').filter (gathered join conditions').finish where
  form := form_reordered (h.flatMap_right _) (h.flatMap_right _) (hcompatible.identity_perm h)
  safe := by
    rw [Bool.eq_iff_iff]
    exact Attachments.foldl_merge_perm (P := fun a => a.safe = true)
      (fun a b => Bool.or_eq_true_iff) h {}
  vocabularies := by
    intro label
    rw [Bool.eq_iff_iff]
    exact Attachments.foldl_merge_perm (P := fun a => a.vocabularies.contains label = true)
      (fun a b => KeyMap.contains_union) h {}
  sortVariables := by
    intro key
    rw [Bool.eq_iff_iff]
    exact Attachments.foldl_merge_perm (P := fun a => a.sortVariables.contains key = true)
      (fun a b => KeyMap.contains_union) h {}
  weak := by
    intro w
    exact Attachments.foldl_merge_perm (P := fun a => a.HasWeak w)
      (fun a b => Attachments.hasWeak_merge) h {}

-- Conditions can be merged in any order or in none, and the conditions that they are merged into
-- differ by that order only.
theorem merged_reordered (join : Variable) (h : conditions.Perm conditions') :
    (all? join conditions = none ↔ all? join conditions' = none) ∧
    ∀ m m', all? join conditions = some m → all? join conditions' = some m' →
      m.finish.Reordered m.filter m'.filter m'.finish := by
  constructor
  · rw [all?_eq_none, all?_eq_none]
    exact not_congr ⟨fun hc => hc.perm h, fun hc => hc.perm h.symm⟩
  · intro m m' hm hm'
    obtain ⟨hcompatible, rfl⟩ := all?_eq_some.mp hm
    obtain ⟨-, rfl⟩ := all?_eq_some.mp hm'
    exact gathered_reordered hcompatible h

-- A person is named in two spellings, with a clause, a test and alternatives on the same variable,
-- and two weak conditions that differ by the sign of zero.
theorem merged_reordered_lovelace :
    let x : Variable := ⟨"x"⟩
    let named (title : String) (p : Pattern) : Condition :=
      { form := .singleton (.page ⟨title, 0⟩) p, attachments := { safe := true } }
    let born (zero : Number) : Condition :=
      .ofFilter [.compare (.field "born" x) .greater (.value (.number zero))]
    let dated (zero : Number) : Condition :=
      { form := .alternatives [born zero, .nothing], attachments := { weak := [born zero] } }
    let conditions := [named "Ada Lovelace" [.inNamespace x 0], dated ⟨0⟩, born ⟨1⟩,
      dated ⟨0x8000000000000000⟩, named " Ada_Lovelace" []]
    conditions.Perm conditions.reverse ∧ (all? x conditions).isSome = true ∧
      (all? x conditions = none ↔ all? x conditions.reverse = none) ∧
      ∀ m m', all? x conditions = some m → all? x conditions.reverse = some m' →
        m.finish.Reordered m.filter m'.filter m'.finish := by
  intro x named born dated conditions
  have hperm : conditions.Perm conditions.reverse := (List.reverse_perm conditions).symm
  exact ⟨hperm, by decide +kernel, merged_reordered x hperm⟩

end Merge

end WikiQuery
