import Mathlib.Tactic.ByContra
import Mathlib.Tactic.Tauto
import WikiQuery.Proofs.Condition.Compatible
import WikiQuery.Proofs.Meaning.Interpretation

namespace WikiQuery

universe u

variable {E : Type u} {I : Interpretation E} {t : SubqueryTable} {σ : Variable → E}
  {join : Variable}

namespace Merge

-- What has been merged so far holds: its clauses, its tests, and the binding.
def Holds (I : Interpretation E) (t : SubqueryTable) (σ : Variable → E) (join : Variable)
    (m : Merge) : Prop :=
  Pattern.Holds I t σ m.pattern ∧ Filter.Holds I σ m.filter ∧
    ∀ r, m.bound = some r → σ join = I.denotes r

variable {m m' : Merge} {c : Condition}

-- Of bindings to two resources with one identity, either is as good as both.
theorem holds_bound_or {bound : Option Resource}
    (h : ∀ r r', bound = some r → c.bound? = some r' → r.identity = r'.identity) :
    (∀ r, bound.or c.bound? = some r → σ join = I.denotes r) ↔
      (∀ r, bound = some r → σ join = I.denotes r) ∧
        ∀ r, c.bound? = some r → σ join = I.denotes r := by
  cases hbound : bound with
  | none => simp
  | some r =>
    have hsame : ∀ r', c.bound? = some r' → I.denotes r' = I.denotes r := by
      intro r' hr'
      exact (I.denotes_eq_iff _ _).mpr (h r r' hbound hr').symm
    simp +contextual [hsame]

theorem holds_absorb? (h : m.absorb? join c = some m') :
    m'.Holds I t σ join ↔ m.Holds I t σ join ∧ c.Holds I t σ join := by
  have hsame : ∀ r r', m.bound = some r → c.bound? = some r' → r.identity = r'.identity := by
    intro r r' hr hr'
    by_contra hne
    rw [absorb?_eq_none.mpr (.inr ⟨r, r', hr, hr', hne⟩)] at h
    cases h
  obtain ⟨p, f, rfl, hcases⟩ := absorb?_cases h
  have hadded : c.Holds I t σ join ↔ Pattern.Holds I t σ p ∧ Filter.Holds I σ f ∧
      ∀ r, c.bound? = some r → σ join = I.denotes r := by
    rcases hcases with ⟨hform, rfl, rfl⟩ | ⟨hform, rfl⟩ | ⟨hform, rfl⟩ | ⟨r, hform, rfl⟩ |
      ⟨branches, hform, hgroup, rfl⟩
    · simp [Condition.holds_of_everything hform, Condition.bound?, hform]
    · simp [Condition.holds_of_filter hform, Condition.bound?, hform]
    · simp [Condition.holds_of_pattern hform, Condition.bound?, hform]
    · simp [Condition.holds_of_singleton hform, Condition.bound?, hform, and_comm]
    · simp [← Condition.holds_toPattern? hgroup, Condition.bound?, hform]
  rw [hadded]
  simp only [Holds, Pattern.holds_append, Filter.holds_append, holds_bound_or hsame]
  tauto

theorem not_holds_of_absorb?_eq_none (h : m.absorb? join c = none)
    (hm : m.Holds I t σ join) : ¬ c.Holds I t σ join := by
  intro hc
  rcases absorb?_eq_none.mp h with hform | ⟨bound, r, hbound, hr, hne⟩
  · exact Condition.not_holds_of_nothing hform hc
  · have hdenotes : I.denotes bound = I.denotes r := by
      rw [← hm.2.2 bound hbound, Condition.denotes_of_bound? hr hc]
    exact hne ((I.denotes_eq_iff _ _).mp hdenotes)

theorem holds_all? {conditions : List Condition} (h : all? join conditions = some m) :
    m.Holds I t σ join ↔ ∀ c ∈ conditions, c.Holds I t σ join := by
  refine all_induction (P := fun done m =>
    m.Holds I t σ join ↔ ∀ c ∈ done, c.Holds I t σ join) (by simp [Holds]) ?_ h
  intro done m c m' hdone habsorb
  rw [holds_absorb? habsorb, hdone, List.forall_mem_append, List.forall_mem_singleton]

theorem holds_finish : m.finish.Holds I t σ join ↔ m.Holds I t σ join := by
  unfold finish form Holds
  cases m.bound with
  | some r =>
    rw [Condition.holds_of_singleton rfl, Pattern.holds_addFilter]
    simp only [Option.some.injEq, forall_eq']
    tauto
  | none =>
    by_cases hp : m.pattern = []
    · by_cases hf : m.filter = []
      · simp [hp, hf, Condition.Holds]
      · simp [hp, hf, Condition.Holds]
    · simp [hp, Condition.Holds]

-- Conditions that hold together can be merged: the variable stands for one entity only.
theorem compatible_of_holds {conditions : List Condition}
    (h : ∀ c ∈ conditions, c.Holds I t σ join) : Condition.Compatible conditions where
  possible := by
    intro c hc hform
    exact Condition.not_holds_of_nothing hform (h c hc)
  agree := by
    intro c hc d hd r r' hr hr'
    have hdenotes : I.denotes r = I.denotes r' := by
      rw [← Condition.denotes_of_bound? hr (h c hc), Condition.denotes_of_bound? hr' (h d hd)]
    exact (I.denotes_eq_iff r r').mp hdenotes

-- To merge conditions is to ask for all of them, whatever they look like: where they cannot be
-- merged they do not hold together, and what they are merged into holds just where they all do.
theorem merged_holds_iff (I : Interpretation E) (t : SubqueryTable) (σ : Variable → E)
    (join : Variable) (conditions : List Condition) :
    (all? join conditions = none → ¬ ∀ c ∈ conditions, c.Holds I t σ join) ∧
    ∀ m, all? join conditions = some m →
      (m.finish.Holds I t σ join ↔ ∀ c ∈ conditions, c.Holds I t σ join) := by
  constructor
  · intro hnone hholds
    exact all?_eq_none.mp hnone (compatible_of_holds hholds)
  · intro m hm
    rw [holds_finish, holds_all? hm]

end Merge

theorem Compiler.holds_alternativesCondition {branches : List Condition} :
    (alternativesCondition branches).Holds I t σ join ↔
      ∃ b ∈ branches, b.Holds I t σ join := by
  match branches with
  | [] => simp [alternativesCondition, Condition.nothing, Condition.Holds]
  | [branch] => simp [alternativesCondition]
  | first :: second :: rest => exact Condition.holds_of_alternatives rfl

end WikiQuery
