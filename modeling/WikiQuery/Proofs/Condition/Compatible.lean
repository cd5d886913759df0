import Mathlib.Data.List.Induction
import WikiQuery.Proofs.Condition.Atoms

namespace WikiQuery

namespace Condition

-- The clauses that a condition adds to those of the conditions it is merged with.
def clauses (join : Variable) (c : Condition) : Pattern :=
  match c.form with
  | .pattern p => p
  | .singleton _ p => p
  | .alternatives branches => [.union (branchPatterns join branches)]
  | _ => []

-- The tests that a condition adds.
def tests (c : Condition) : Filter :=
  match c.form with
  | .filter f => f
  | _ => []

-- Conditions on one variable that can be merged: none of them is fulfilled by nothing, and those
-- that bind the variable to a resource agree on its identity.
structure Compatible (conditions : List Condition) : Prop where
  possible : ∀ c ∈ conditions, c.form ≠ .nothing
  agree : ∀ c ∈ conditions, ∀ d ∈ conditions, ∀ r t, c.bound? = some r → d.bound? = some t →
    r.identity = t.identity

variable {conditions : List Condition} {c : Condition}

theorem compatible_nil : Compatible [] where
  possible := by simp
  agree := by simp

-- Of conditions that agree, the first one that binds the variable speaks for all.
theorem compatible_concat :
    Compatible (conditions ++ [c]) ↔ Compatible conditions ∧ c.form ≠ .nothing ∧
      ∀ r t, conditions.findSome? bound? = some r → c.bound? = some t →
        r.identity = t.identity := by
  constructor
  · intro h
    refine ⟨⟨?_, ?_⟩, h.possible c (by simp), ?_⟩
    · intro d hd
      exact h.possible d (List.mem_append_left _ hd)
    · intro d hd e he
      exact h.agree d (List.mem_append_left _ hd) e (List.mem_append_left _ he)
    · intro r t hr ht
      obtain ⟨d, hd, hr⟩ := List.exists_of_findSome?_eq_some hr
      exact h.agree d (List.mem_append_left _ hd) c (by simp) r t hr ht
  · rintro ⟨h, hpossible, hfirst⟩
    -- whatever binds the variable has the identity that the first one of them has
    have hlast : ∀ d ∈ conditions, ∀ r t, d.bound? = some r → c.bound? = some t →
        r.identity = t.identity := by
      intro d hd r t hr ht
      cases hfound : conditions.findSome? bound? with
      | none =>
        rw [List.findSome?_eq_none_iff.mp hfound d hd] at hr
        cases hr
      | some x =>
        obtain ⟨e, he, hx⟩ := List.exists_of_findSome?_eq_some hfound
        exact (h.agree d hd e he r x hr hx).trans (hfirst x t hfound ht)
    refine ⟨List.forall_mem_append.mpr ⟨h.possible, by simpa using hpossible⟩, ?_⟩
    intro d hd e he r t hr ht
    rcases List.mem_append.mp hd with hd | hd <;> rcases List.mem_append.mp he with he | he
    · exact h.agree d hd e he r t hr ht
    · rw [List.mem_singleton.mp he] at ht
      exact hlast d hd r t hr ht
    · rw [List.mem_singleton.mp hd] at hr
      exact (hlast e he t r ht hr).symm
    · rw [List.mem_singleton.mp hd] at hr
      rw [List.mem_singleton.mp he, hr] at ht
      rw [Option.some.inj ht]

end Condition

namespace Merge

variable {join : Variable} {m m' : Merge} {c : Condition} {conditions : List Condition}

-- What conditions amount to together: their clauses and their tests one after the other, the first
-- resource that the variable is bound to, and all that goes along with them.
def gathered (join : Variable) (conditions : List Condition) : Merge where
  pattern := conditions.flatMap (Condition.clauses join)
  filter := conditions.flatMap Condition.tests
  bound := conditions.findSome? Condition.bound?
  attachments := conditions.foldl (fun a c => a.merge c.attachments) {}

theorem absorb?_eq_some : m.absorb? join c = some m' ↔ c.form ≠ .nothing ∧
    (∀ r t, m.bound = some r → c.bound? = some t → r.identity = t.identity) ∧
    m' = ⟨m.pattern ++ c.clauses join, m.filter ++ c.tests, m.bound.or c.bound?,
      m.attachments.merge c.attachments⟩ := by
  have hadded : ∀ {m'}, m.absorb? join c = some m' →
      m' = ⟨m.pattern ++ c.clauses join, m.filter ++ c.tests, m.bound.or c.bound?,
        m.attachments.merge c.attachments⟩ := by
    intro m' h
    obtain ⟨p, f, rfl, hcases⟩ := absorb?_cases h
    rcases hcases with ⟨hform, rfl, rfl⟩ | ⟨hform, rfl⟩ | ⟨hform, rfl⟩ | ⟨r, hform, rfl⟩ |
      ⟨branches, hform, hgroup, rfl⟩
    · simp [Condition.clauses, Condition.tests, hform]
    · simp [Condition.clauses, Condition.tests, hform]
    · simp [Condition.clauses, Condition.tests, hform]
    · simp [Condition.clauses, Condition.tests, hform]
    · obtain ⟨form, a⟩ := c
      cases hform
      cases hgroup
      simp [Condition.clauses, Condition.tests]
  constructor
  · intro h
    have hclash : ¬ (c.form = .nothing ∨
        ∃ bound r, m.bound = some bound ∧ c.bound? = some r ∧ bound.identity ≠ r.identity) := by
      intro hnone
      rw [absorb?_eq_none.mpr hnone] at h
      cases h
    obtain ⟨hform, hsame⟩ := not_or.mp hclash
    refine ⟨hform, ?_, hadded h⟩
    intro r t hr ht
    by_contra hne
    exact hsame ⟨r, t, hr, ht, hne⟩
  · rintro ⟨hform, hsame, rfl⟩
    cases h : m.absorb? join c with
    | none =>
      rcases absorb?_eq_none.mp h with hnothing | ⟨r, t, hr, ht, hne⟩
      · exact absurd hnothing hform
      · exact absurd (hsame r t hr ht) hne
    | some merged => rw [hadded h]

theorem all?_concat :
    all? join (conditions ++ [c]) = (all? join conditions).bind fun m => m.absorb? join c := by
  unfold all?
  rw [List.foldlM_append]
  simp

-- Conditions are merged just if they are compatible, and then they are gathered.
theorem all?_eq_some :
    all? join conditions = some m ↔
      Condition.Compatible conditions ∧ m = gathered join conditions := by
  induction conditions using List.reverseRecOn generalizing m with
  | nil =>
    constructor
    · intro h
      cases h
      exact ⟨Condition.compatible_nil, rfl⟩
    · rintro ⟨-, rfl⟩
      rfl
  | append_singleton rest c ih =>
    have hgathered : gathered join (rest ++ [c]) =
        ⟨(gathered join rest).pattern ++ c.clauses join, (gathered join rest).filter ++ c.tests,
          (gathered join rest).bound.or c.bound?,
          (gathered join rest).attachments.merge c.attachments⟩ := by
      simp [gathered]
    rw [all?_concat, Option.bind_eq_some_iff, Condition.compatible_concat, hgathered]
    constructor
    · rintro ⟨m₁, hm₁, habsorb⟩
      obtain ⟨hrest, rfl⟩ := ih.mp hm₁
      obtain ⟨hform, hsame, hm⟩ := absorb?_eq_some.mp habsorb
      exact ⟨⟨hrest, hform, hsame⟩, hm⟩
    · rintro ⟨⟨hrest, hform, hsame⟩, hm⟩
      exact ⟨gathered join rest, ih.mpr ⟨hrest, rfl⟩, absorb?_eq_some.mpr ⟨hform, hsame, hm⟩⟩

theorem all?_eq_none : all? join conditions = none ↔ ¬ Condition.Compatible conditions := by
  rw [Option.eq_none_iff_forall_ne_some]
  constructor
  · intro h hcompatible
    exact h _ (all?_eq_some.mpr ⟨hcompatible, rfl⟩)
  · intro h m hm
    exact h (all?_eq_some.mp hm).1

end Merge

end WikiQuery
