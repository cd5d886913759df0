import WikiQuery.Proofs.Condition.Atoms

namespace WikiQuery

-- A clause in which nothing is left empty: a union is a choice between at least two groups.
def Clause.Normal : Clause → Prop
  | .inCategory _ ids _ => ids ≠ [] ∧ ids.Nodup
  | .filter f => f ≠ []
  | .union groups =>
    2 ≤ groups.length ∧ ∀ group ∈ groups, group ≠ [] ∧ ∀ clause ∈ group, Normal clause
  | _ => True
decreasing_by exact sizeOf_lt_union ‹_› ‹_›

def Pattern.Normal (p : Pattern) : Prop := ∀ clause ∈ p, clause.Normal

namespace Pattern

variable {p q : Pattern}

theorem Normal.append (hp : p.Normal) (hq : q.Normal) : Pattern.Normal (p ++ q) :=
  List.forall_mem_append.mpr ⟨hp, hq⟩

theorem normal_singleton {clause : Clause} : Pattern.Normal [clause] ↔ clause.Normal :=
  List.forall_mem_singleton

theorem Normal.addFilter {f : Filter} (hp : p.Normal) : (p.addFilter f).Normal := by
  unfold Pattern.addFilter
  split
  · exact hp
  · rename_i hf
    refine hp.append (normal_singleton.mpr ?_)
    rw [Clause.Normal]
    simpa using hf

theorem addFilter_ne_nil {f : Filter} (h : p ≠ [] ∨ f ≠ []) : p.addFilter f ≠ [] := by
  unfold Pattern.addFilter
  by_cases hf : f = []
  · simpa [hf] using h
  · simp [hf]

end Pattern

namespace Attachments

variable {γ : Type} [BEq γ] {a b : Attachments γ}

-- Without vocabularies, and with nothing that selects entities.
def Bare (a : Attachments γ) : Prop := a.vocabularies = ∅ ∧ a.safe = false

theorem Bare.merge (ha : a.Bare) (hb : b.Bare) : (a.merge b).Bare := by
  constructor
  · simp only [Attachments.merge, ha.1, hb.1]
    rfl
  · simp only [Attachments.merge, ha.2, hb.2, Bool.or_self]

end Attachments

namespace Condition

-- A condition in normal form. Nothing goes along with one that nothing fulfils, and neither a
-- vocabulary nor a selection with one that everything fulfils; what asks for something in between
-- leaves nothing empty, and its alternatives are conditions of that kind again.
def Normal : Condition → Prop
  | ⟨.everything, a⟩ => a.Bare
  | ⟨.nothing, a⟩ => a = {}
  | ⟨.pattern p, _⟩ => p ≠ [] ∧ p.Normal
  | ⟨.filter f, _⟩ => f ≠ []
  | ⟨.singleton _ p, _⟩ => p.Normal
  | ⟨.alternatives branches, _⟩ =>
    2 ≤ branches.length ∧
      ∀ b ∈ branches, b.isEverything = false ∧ b.isNothing = false ∧ Normal b

variable {c : Condition}

theorem normal_of_everything (h : c.form = .everything) : c.Normal ↔ c.attachments.Bare := by
  obtain ⟨form, a⟩ := c
  cases h
  rw [Normal]

theorem normal_of_nothing (h : c.form = .nothing) : c.Normal ↔ c.attachments = {} := by
  obtain ⟨form, a⟩ := c
  cases h
  rw [Normal]

theorem normal_of_pattern {p : Pattern} (h : c.form = .pattern p) :
    c.Normal ↔ p ≠ [] ∧ p.Normal := by
  obtain ⟨form, a⟩ := c
  cases h
  rw [Normal]

theorem normal_of_filter {f : Filter} (h : c.form = .filter f) : c.Normal ↔ f ≠ [] := by
  obtain ⟨form, a⟩ := c
  cases h
  rw [Normal]

theorem normal_of_singleton {r : Resource} {p : Pattern} (h : c.form = .singleton r p) :
    c.Normal ↔ p.Normal := by
  obtain ⟨form, a⟩ := c
  cases h
  rw [Normal]

theorem normal_of_alternatives {branches : List Condition} (h : c.form = .alternatives branches) :
    c.Normal ↔ 2 ≤ branches.length ∧
      ∀ b ∈ branches, b.isEverything = false ∧ b.isNothing = false ∧ b.Normal := by
  obtain ⟨form, a⟩ := c
  cases h
  rw [Normal]

theorem normal_nothing : Condition.nothing.Normal := by
  rw [nothing, Normal]

-- Weak conditions and sort variables may be added to what something fulfils.
theorem Normal.withAttachments {a : Attachments Condition} (h : c.Normal)
    (hform : c.isNothing = false) (hvocabularies : a.vocabularies = c.attachments.vocabularies)
    (hsafe : a.safe = c.attachments.safe) : (c.withAttachments a).Normal := by
  obtain ⟨form, b⟩ := c
  cases form with
  | nothing => cases hform
  | everything =>
    have hbare := (normal_of_everything rfl).mp h
    exact (normal_of_everything rfl).mpr ⟨hvocabularies.trans hbare.1, hsafe.trans hbare.2⟩
  | pattern p => exact (normal_of_pattern rfl).mpr ((normal_of_pattern rfl).mp h)
  | filter f => exact (normal_of_filter rfl).mpr ((normal_of_filter rfl).mp h)
  | singleton r p =>
    exact (normal_of_singleton (r := r) rfl).mpr ((normal_of_singleton rfl).mp h)
  | alternatives branches =>
    exact (normal_of_alternatives rfl).mpr ((normal_of_alternatives rfl).mp h)

-- Of branches that something fulfils none is dropped.
theorem length_branchPatterns {join : Variable} {branches : List Condition}
    (h : ∀ b ∈ branches, b.isNothing = false) :
    (branchPatterns join branches).length = branches.length := by
  induction branches with
  | nil => rfl
  | cons b rest ih =>
    obtain ⟨hb, hrest⟩ := List.forall_mem_cons.mp h
    cases hp : toPattern? join b with
    | none =>
      rw [form_eq_nothing.mp (toPattern?_eq_none.mp hp)] at hb
      cases hb
    | some p =>
      rw [branchPatterns, hp]
      simp [ih hrest]

-- The pattern of a condition in normal form is in normal form, and empty only if the condition asks
-- for nothing.
theorem Normal.toPattern? {join : Variable} {p : Pattern} (hc : c.Normal)
    (h : c.toPattern? join = some p) : p.Normal ∧ (c.isEverything = false → p ≠ []) := by
  induction c using nested_induction generalizing p with
  | node form a ih _ =>
    cases form with
    | everything =>
      cases h
      exact ⟨by simp [Pattern.Normal], by simp [isEverything]⟩
    | nothing => cases h
    | pattern q =>
      cases h
      obtain ⟨hne, hq⟩ := (normal_of_pattern rfl).mp hc
      exact ⟨hq, fun _ => hne⟩
    | filter f =>
      cases h
      have hf := (normal_of_filter rfl).mp hc
      exact ⟨Pattern.Normal.addFilter (by simp [Pattern.Normal]),
        fun _ => Pattern.addFilter_ne_nil (.inr hf)⟩
    | singleton r q =>
      cases h
      have hq := (normal_of_singleton rfl).mp hc
      exact ⟨hq.addFilter, fun _ => Pattern.addFilter_ne_nil (.inr (by simp))⟩
    | alternatives branches =>
      cases h
      obtain ⟨hlen, hbranches⟩ := (normal_of_alternatives rfl).mp hc
      refine ⟨Pattern.normal_singleton.mpr ?_, by simp⟩
      rw [Clause.Normal, length_branchPatterns fun b hb => (hbranches b hb).2.1]
      refine ⟨hlen, ?_⟩
      rw [branchPatterns_eq_filterMap]
      intro group hgroup
      obtain ⟨b, hb, hgroup⟩ := List.mem_filterMap.mp hgroup
      obtain ⟨heverything, -, hnormal⟩ := hbranches b hb
      obtain ⟨hclauses, hne⟩ := ih b hb hnormal hgroup
      exact ⟨hne heverything, hclauses⟩

end Condition

namespace Merge

-- A condition in normal form leaves a trace in what is merged, unless everything fulfils it.
theorem absorb?_of_normal {join : Variable} {m m' : Merge} {c : Condition} (hc : c.Normal)
    (h : m.absorb? join c = some m') :
    ∃ p f, m' = ⟨m.pattern ++ p, m.filter ++ f, m.bound.or c.bound?,
        m.attachments.merge c.attachments⟩ ∧
      p.Normal ∧ (c.form = .everything ↔ p = [] ∧ f = [] ∧ c.bound? = none) := by
  have hempty : Pattern.Normal [] := by simp [Pattern.Normal]
  obtain ⟨p, f, hm, hcases⟩ := absorb?_cases h
  refine ⟨p, f, hm, ?_⟩
  rcases hcases with ⟨hform, rfl, rfl⟩ | ⟨hform, rfl⟩ | ⟨hform, rfl⟩ | ⟨r, hform, rfl⟩ |
    ⟨branches, hform, hgroup, rfl⟩
  · exact ⟨hempty, by simp [hform, Condition.bound?]⟩
  · have hne := (Condition.normal_of_filter hform).mp hc
    exact ⟨hempty, by simp [hform, hne]⟩
  · obtain ⟨hne, hp⟩ := (Condition.normal_of_pattern hform).mp hc
    exact ⟨hp, by simp [hform, hne]⟩
  · exact ⟨(Condition.normal_of_singleton hform).mp hc, by simp [hform, Condition.bound?]⟩
  · obtain ⟨hp, hne⟩ := hc.toPattern? hgroup
    exact ⟨hp, by simp [hform, hne (by simp [Condition.isEverything, hform])]⟩

-- Merged conditions with a pattern in normal form. If they ask for nothing, then neither did any
-- of them, so that nothing but sorts goes along with them.
structure Normal (m : Merge) : Prop where
  pattern : m.pattern.Normal
  bare : m.pattern = [] → m.filter = [] → m.bound = none → m.attachments.Bare

variable {join : Variable} {m m' : Merge}

theorem Normal.absorb? {c : Condition} (hm : m.Normal) (hc : c.Normal)
    (h : m.absorb? join c = some m') : m'.Normal := by
  obtain ⟨p, f, rfl, hp, hform⟩ := absorb?_of_normal hc h
  refine ⟨hm.pattern.append hp, ?_⟩
  intro hpattern hfilter hbound
  obtain ⟨hmp, hp⟩ := List.append_eq_nil_iff.mp hpattern
  obtain ⟨hmf, hf⟩ := List.append_eq_nil_iff.mp hfilter
  obtain ⟨hmb, hb⟩ := Option.or_eq_none_iff.mp hbound
  have hbare := (Condition.normal_of_everything (hform.mpr ⟨hp, hf, hb⟩)).mp hc
  exact (hm.bare hmp hmf hmb).merge hbare

theorem normal_all? {conditions : List Condition} (hc : ∀ c ∈ conditions, c.Normal)
    (h : all? join conditions = some m) : m.Normal := by
  refine all_induction (P := fun done m => (∀ c ∈ done, c.Normal) → m.Normal) ?_ ?_ h hc
  · intro _
    exact ⟨by simp [Pattern.Normal], fun _ _ _ => ⟨rfl, rfl⟩⟩
  · intro done m c m' hdone habsorb hnormal
    obtain ⟨hbefore, hlast⟩ := List.forall_mem_append.mp hnormal
    exact (hdone hbefore).absorb? (hlast c (by simp)) habsorb

theorem Normal.finish (hm : m.Normal) : m.finish.Normal := by
  unfold Merge.finish Merge.form
  cases hbound : m.bound with
  | some r => exact (Condition.normal_of_singleton (r := r) rfl).mpr hm.pattern.addFilter
  | none =>
    by_cases hp : m.pattern = []
    · by_cases hf : m.filter = []
      · exact (Condition.normal_of_everything (by simp [hp, hf])).mpr (hm.bare hp hf hbound)
      · exact (Condition.normal_of_filter (by simp [hp, hf])).mpr hf
    · rw [if_neg (by simpa using hp)]
      exact (Condition.normal_of_pattern rfl).mpr
        ⟨Pattern.addFilter_ne_nil (.inl hp), hm.pattern.addFilter⟩

end Merge

theorem Compiler.normal_alternativesCondition {branches : List Condition}
    (h : ∀ b ∈ branches, b.isEverything = false ∧ b.isNothing = false ∧ b.Normal) :
    (alternativesCondition branches).Normal := by
  match branches with
  | [] => exact Condition.normal_nothing
  | [branch] => exact (h branch (by simp)).2.2
  | first :: second :: rest => exact (Condition.normal_of_alternatives rfl).mpr ⟨by simp, h⟩

end WikiQuery
