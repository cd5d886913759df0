import Mathlib.Logic.Function.Basic
import WikiQuery.Proofs.Compile.Closures
import WikiQuery.Proofs.Compile.Scope
import WikiQuery.Proofs.Meaning.Agreement
import WikiQuery.Proofs.Meaning.Description
import WikiQuery.Proofs.Meaning.Merge

namespace WikiQuery

universe u

variable {E : Type u} {I : Interpretation E} {t : SubqueryTable} {σ τ : Variable → E}

-- The closure for a clause is found behind its registration, also in any table that has grown.
theorem SubqueryTable.propertyAt?_of_close {s s' : Progress} {depth : UInt32} {p : Property}
    {id : Nat} {closure : Option SubqueryId}
    (h : s.close depth (.property p id depth) = (closure, s'))
    (ht : s'.subqueries.entries <+: t.entries) : t.propertyAt? p closure = some (p, depth) := by
  rcases Progress.close_cases h with ⟨rfl, rfl, -⟩ | ⟨rfl, rfl⟩
  · rfl
  · obtain ⟨-, hget, -⟩ := s.subqueries.register_cases (.property p id depth)
    simp [propertyAt?, get?_mono ht hget]

theorem SubqueryTable.categoriesAt?_of_close {s s' : Progress} {depth : UInt32} {ids : List Nat}
    {closure : Option SubqueryId} (h : s.close depth (.categories ids depth) = (closure, s'))
    (ht : s'.subqueries.entries <+: t.entries) :
    t.categoriesAt? ids closure = some (ids, depth) := by
  rcases Progress.close_cases h with ⟨rfl, rfl, -⟩ | ⟨rfl, rfl⟩
  · rfl
  · obtain ⟨-, hget, -⟩ := s.subqueries.register_cases (.categories ids depth)
    simp [categoriesAt?, get?_mono ht hget]

-- A progress that another one goes on from.
structure Progress.Le (s s' : Progress) : Prop where
  counter : s.counter ≤ s'.counter
  subqueries : s.subqueries.entries <+: s'.subqueries.entries

theorem Progress.Le.refl (s : Progress) : s.Le s :=
  ⟨Nat.le_refl _, List.prefix_refl _⟩

theorem Progress.Le.trans {s s₁ s₂ : Progress} (h₁ : s.Le s₁) (h₂ : s₁.Le s₂) : s.Le s₂ :=
  ⟨Nat.le_trans h₁.counter h₂.counter, h₁.subqueries.trans h₂.subqueries⟩

namespace Compiler

variable {c : Compiler} {keys : SortKeys} {join : Variable}

theorem holds_link {p q : Property} {v : Variable} {closure : Option SubqueryId} {depth : UInt32}
    (h : t.propertyAt? p closure = some (q, depth)) :
    (link join p v closure).Holds I t σ ↔
      if p.inverse then I.related q depth (σ v) (σ join) else I.related q depth (σ join) (σ v) := by
  unfold link
  cases p.inverse
  · simp [Clause.Holds, h, Term.entityOf]
  · simp [Clause.Holds, h, Term.entityOf]

theorem holds_hasValue {p q : Property} {closure : Option SubqueryId} {depth : UInt32}
    (h : t.propertyAt? p closure = some (q, depth)) :
    (Clause.hasValue join p closure).Holds I t σ ↔ I.valued q depth (σ join) := by
  simp [Clause.Holds, h]

theorem holds_inCategory {s s' : Progress} {ids : List Nat} {depth : UInt32}
    {closure : Option SubqueryId} (hclose : s.close depth (.categories ids depth) = (closure, s'))
    (ht : s'.subqueries.entries <+: t.entries) :
    (Clause.inCategory join ids closure).Holds I t σ ↔ I.member ids depth (σ join) := by
  simp [Clause.Holds, SubqueryTable.categoriesAt?_of_close hclose ht]

theorem holds_comparison {p : Property} {relation : Relation} {x : Value} :
    (c.comparison join p relation x).Holds I t σ join ↔ c.Compares I p relation x (σ join) := by
  unfold comparison
  cases x with
  | page r => exact (Condition.holds_of_filter rfl).trans Filter.holds_singleton
  | text s => exact (Condition.holds_of_filter rfl).trans Filter.holds_singleton
  | number n => exact (Condition.holds_of_filter rfl).trans Filter.holds_singleton
  | boolean b => exact (Condition.holds_of_filter rfl).trans Filter.holds_singleton

theorem holds_matching {p : Property} {pattern : String} {negated : Bool} :
    (c.matching join p pattern negated).Holds I t σ join ↔
      c.Matches I p pattern negated (σ join) :=
  (Condition.holds_of_filter rfl).trans Filter.holds_singleton

theorem holds_comparedCondition {target : Option SortTarget} {p : Property}
    {comparator : Comparator} {x : Value} :
    (c.comparedCondition keys join target p comparator x).Holds I t σ join ↔
      c.MeetsValue I p comparator x (σ join) := by
  have hform : (c.comparedCondition keys join target p comparator x).form =
      ((c.valueCondition? join p comparator x).getD .everything).form := by
    unfold comparedCondition
    rw [form_attachSort]
    cases c.valueCondition? join p comparator x with
    | none => rfl
    | some condition => exact form_declareValue x condition
  rw [Condition.holds_congr hform]
  cases comparator <;> cases x <;>
    simp [valueCondition?, Comparator.relation?, MeetsValue, holds_comparison, holds_matching,
      Condition.everything, Condition.Holds]

-- Two ways to bind variables that differ at most on those with a number between two counters.
def Agrees (c : Compiler) (n n' : Nat) (σ τ : Variable → E) : Prop :=
  ∀ v, (∀ k, n < k → k ≤ n' → v ≠ c.numbered k) → τ v = σ v

theorem Agrees.refl (n n' : Nat) : c.Agrees n n' σ σ :=
  fun _ _ => rfl

theorem Agrees.mono {n n₁ n₂ n' : Nat} (h : c.Agrees n₁ n₂ σ τ) (hlo : n ≤ n₁) (hhi : n₂ ≤ n') :
    c.Agrees n n' σ τ := by
  intro v hv
  apply h v
  intro k hk hk'
  exact hv k (by omega) (by omega)

theorem Agrees.trans {n n' : Nat} {υ : Variable → E} (h₁ : c.Agrees n n' σ τ)
    (h₂ : c.Agrees n n' τ υ) : c.Agrees n n' σ υ := by
  intro v hv
  rw [h₂ v hv, h₁ v hv]

-- Once the next variable is bound, the variables behind it leave it as it is.
theorem Agrees.of_update {n n' : Nat} {e : E}
    (h : c.Agrees (n + 1) n' (Function.update σ (c.numbered (n + 1)) e) τ) (hle : n + 1 ≤ n') :
    c.Agrees n n' σ τ ∧ τ (c.numbered (n + 1)) = e := by
  constructor
  · intro v hv
    have hne : v ≠ c.numbered (n + 1) := hv (n + 1) (by omega) hle
    rw [h v fun k hk => hv k (by omega), Function.update_of_ne hne]
  · rw [h _ fun k hk _ => numbered_ne_of_lt hk, Function.update_self]

-- A condition says of a variable what a description means. Where the condition holds, the entity of
-- the variable meets the description; and where that entity meets it, fresh variables can be bound
-- so that the condition holds.
structure Faithful (c : Compiler) (I : Interpretation E) (path : List Page) (d : Description)
    (join : Variable) (s : Progress) (condition : Condition) (s' : Progress) : Prop where
  sound : ∀ t σ, s'.subqueries.entries <+: t.entries → condition.Holds I t σ join →
    c.Meets I path d (σ join)
  complete : ∀ t σ, s'.subqueries.entries <+: t.entries →
    (∀ k, s.counter < k → join ≠ c.numbered k) → c.Meets I path d (σ join) →
    ∃ τ, c.Agrees s.counter s'.counter σ τ ∧ condition.Holds I t τ join

variable {path : List Page} {d : Description} {s s' : Progress} {condition : Condition}

theorem Faithful.of_iff
    (h : ∀ t σ, s'.subqueries.entries <+: t.entries →
      (condition.Holds I t σ join ↔ c.Meets I path d (σ join))) :
    c.Faithful I path d join s condition s' where
  sound t σ ht hholds := (h t σ ht).mp hholds
  complete t σ ht _ hmeets := ⟨σ, Agrees.refl _ _, (h t σ ht).mpr hmeets⟩

theorem Faithful.of_always (hform : condition.form = .everything)
    (h : ∀ σ : Variable → E, c.Meets I path d (σ join)) :
    c.Faithful I path d join s condition s' :=
  .of_iff fun _ σ _ => iff_of_true (Condition.holds_of_everything hform) (h σ)

theorem Faithful.of_never
    (h : (∀ k, s.counter < k → join ≠ c.numbered k) → ∀ σ : Variable → E,
      ¬ c.Meets I path d (σ join)) :
    c.Faithful I path d join s .nothing s' where
  sound _ _ _ hholds := absurd hholds (Condition.not_holds_of_nothing rfl)
  complete _ σ _ hjoin hmeets := absurd hmeets (h hjoin σ)

theorem Faithful.congr {condition' : Condition} (h : c.Faithful I path d join s condition s')
    (hform : condition'.form = condition.form) :
    c.Faithful I path d join s condition' s' where
  sound t σ ht hholds := h.sound t σ ht ((Condition.holds_congr hform).mp hholds)
  complete t σ ht hjoin hmeets := by
    obtain ⟨τ, hagrees, hholds⟩ := h.complete t σ ht hjoin hmeets
    exact ⟨τ, hagrees, (Condition.holds_congr hform).mpr hholds⟩

theorem Faithful.of_meets_iff {path' : List Page} {d' : Description}
    (h : c.Faithful I path d join s condition s')
    (hmeets : ∀ e, c.Meets I path' d' e ↔ c.Meets I path d e) :
    c.Faithful I path' d' join s condition s' where
  sound t σ ht hholds := (hmeets _).mpr (h.sound t σ ht hholds)
  complete t σ ht hjoin hmet := h.complete t σ ht hjoin ((hmeets _).mp hmet)

theorem Faithful.mono {s₁ s₂ : Progress} (h : c.Faithful I path d join s₁ condition s₂)
    (hs : s.Le s₁) (hs' : s₂.Le s') : c.Faithful I path d join s condition s' where
  sound t σ ht := h.sound t σ (hs'.subqueries.trans ht)
  complete t σ ht hjoin hmeets := by
    have hle := hs.counter
    obtain ⟨τ, hagrees, hholds⟩ := h.complete t σ (hs'.subqueries.trans ht)
      (fun k hk => hjoin k (by omega)) hmeets
    exact ⟨τ, hagrees.mono hs.counter hs'.counter, hholds⟩

theorem Compiles.le {target : Option SortTarget}
    (h : Compiles c keys path d join target s condition s') : s.Le s' :=
  ⟨h.numbers.le, h.gains.grows⟩

-- A condition does not depend on variables that are numbered behind it.
theorem Compiles.holds_of_agrees {target : Option SortTarget} {n : Nat}
    (h : Compiles c keys path d join target s condition s')
    (hjoin : ∀ k, s.counter < k → join ≠ c.numbered k) (hagrees : c.Agrees s'.counter n σ τ) :
    condition.Holds I t τ join ↔ condition.Holds I t σ join := by
  have hle := h.numbers.le
  refine Condition.holds_of_agree (List.mem_singleton_self join) h.scoped ?_
  intro v hv
  apply hagrees v
  intro k hk _
  rcases List.mem_append.mp hv with hv | hv
  · rw [List.mem_singleton.mp hv]
    exact hjoin k (by omega)
  · obtain ⟨l, -, hl, rfl⟩ := h.numbers.numbered v hv
    exact numbered_ne_of_lt (by omega)

section Chains

-- A part of a description that is compiled, and faithfully.
structure FaithfulStep (c : Compiler) (I : Interpretation E) (keys : SortKeys) (path : List Page)
    (join : Variable) (target : Option SortTarget) (part : Description) (s : Progress)
    (condition : Condition) (s' : Progress) : Prop where
  compiles : Compiles c keys path part join target s condition s'
  faithful : c.Faithful I path part join s condition s'

variable {target : Option SortTarget} {parts : List Description} {conditions : List Condition}

theorem chain_faithfulSteps {R : Description → Progress → Condition → Progress → Prop}
    (hsteps : ∀ part s b s', R part s b s' → Compiles c keys path part join target s b s')
    (ih : ∀ part s b s', R part s b s' → c.Faithful I path part join s b s')
    (chain : Chain R parts s conditions s') :
    Chain (c.FaithfulStep I keys path join target) parts s conditions s' :=
  chain.imp fun part s b s' h => ⟨hsteps part s b s' h, ih part s b s' h⟩

-- Along a chain every part has a condition that is faithful to it, and every condition a part.
theorem faithful_chain
    (chain : Chain (c.FaithfulStep I keys path join target) parts s conditions s') :
    s.Le s' ∧
    (∀ part ∈ parts, ∃ condition ∈ conditions, c.Faithful I path part join s condition s') ∧
    ∀ condition ∈ conditions, ∃ part ∈ parts, c.Faithful I path part join s condition s' := by
  induction chain with
  | @nil s => exact ⟨.refl s, by simp, by simp⟩
  | @cons part parts condition conditions s s₁ s₂ first _ ih =>
    obtain ⟨hle, hparts, hconditions⟩ := ih
    have hle₁ := first.compiles.le
    have hfirst := first.faithful.mono (.refl s) hle
    refine ⟨hle₁.trans hle, ?_, ?_⟩
    · refine List.forall_mem_cons.mpr ⟨⟨condition, by simp, hfirst⟩, ?_⟩
      intro part' hpart
      obtain ⟨b, hb, hfaithful⟩ := hparts part' hpart
      exact ⟨b, List.mem_cons_of_mem _ hb, hfaithful.mono hle₁ (.refl s₂)⟩
    · refine List.forall_mem_cons.mpr ⟨⟨part, by simp, hfirst⟩, ?_⟩
      intro b hb
      obtain ⟨part', hpart, hfaithful⟩ := hconditions b hb
      exact ⟨part', List.mem_cons_of_mem _ hpart, hfaithful.mono hle₁ (.refl s₂)⟩

-- An entity that meets all parts has bindings under which all conditions hold. They are found for
-- one condition after the other, and none of them is touched when the next ones are found.
theorem complete_chain
    (chain : Chain (c.FaithfulStep I keys path join target) parts s conditions s')
    (ht : s'.subqueries.entries <+: t.entries)
    (hjoin : ∀ k, s.counter < k → join ≠ c.numbered k)
    (hmeets : ∀ part ∈ parts, c.Meets I path part (σ join)) :
    ∃ τ, c.Agrees s.counter s'.counter σ τ ∧
      ∀ condition ∈ conditions, condition.Holds I t τ join := by
  induction chain generalizing σ with
  | nil => exact ⟨σ, Agrees.refl _ _, by simp⟩
  | @cons part parts condition conditions s s₁ s₂ first rest ih =>
    have hle₁ := first.compiles.le
    have hle₂ := (faithful_chain rest).1
    have hcounter := hle₁.counter
    obtain ⟨hpart, hparts⟩ := List.forall_mem_cons.mp hmeets
    obtain ⟨σ₁, hagrees₁, hholds₁⟩ :=
      first.faithful.complete t σ (hle₂.subqueries.trans ht) hjoin hpart
    have hsame : σ₁ join = σ join := hagrees₁ join fun k hk _ => hjoin k hk
    obtain ⟨τ, hagrees, hholds⟩ := ih ht (fun k hk => hjoin k (by omega)) (hsame ▸ hparts)
    refine ⟨τ, ?_, List.forall_mem_cons.mpr ⟨?_, hholds⟩⟩
    · exact (hagrees₁.mono (Nat.le_refl _) hle₂.counter).trans
        (hagrees.mono hle₁.counter (Nat.le_refl _))
    · exact (first.compiles.holds_of_agrees hjoin hagrees).mpr hholds₁

end Chains

section Properties

variable {s₁ : Progress} {p : Property} {info : PropertyInfo} {clause : Clause} {v : Variable}
  {inner : Description}

theorem sound_opening (hp : c.catalog.property? p = some info)
    (hopen : c.opening join p info s = ((clause, v), s₁))
    (ht : s₁.subqueries.entries <+: t.entries) (hclause : clause.Holds I t σ)
    (hinner : c.Meets I path inner (σ v)) : c.Meets I path (.someProperty p inner) (σ join) := by
  obtain ⟨closure, s₀, hclose, ⟨hpage, -, rfl, rfl⟩ | ⟨hpage, rfl, rfl, rfl⟩⟩ := opening_cases hopen
  · have hclosure := SubqueryTable.propertyAt?_of_close hclose ht
    exact (meets_someProperty_page hp hpage).mpr ⟨σ v, (holds_link hclosure).mp hclause, hinner⟩
  · have hclosure := SubqueryTable.propertyAt?_of_close hclose ht
    exact (meets_someProperty_inline hp hpage).mpr ⟨(holds_hasValue hclosure).mp hclause, hinner⟩

-- The value that an entity has is bound to the fresh variable, before the variables of the inner
-- condition are bound.
theorem complete_opening {target : Option SortTarget} (hp : c.catalog.property? p = some info)
    (hopen : c.opening join p info s = ((clause, v), s₁))
    (hinner : c.FaithfulStep I keys path v target inner s₁ condition s')
    (ht : s'.subqueries.entries <+: t.entries)
    (hjoin : ∀ k, s.counter < k → join ≠ c.numbered k)
    (hmeets : c.Meets I path (.someProperty p inner) (σ join)) :
    ∃ τ, c.Agrees s.counter s'.counter σ τ ∧ clause.Holds I t τ ∧ condition.Holds I t τ v := by
  have ht₁ := hinner.compiles.le.subqueries.trans ht
  have hle := hinner.compiles.le.counter
  obtain ⟨closure, s₀, hclose, ⟨hpage, rfl, rfl, rfl⟩ | ⟨hpage, rfl, rfl, rfl⟩⟩ :=
    opening_cases hopen
  · have hcounter := Progress.counter_close hclose
    have hclosure := SubqueryTable.propertyAt?_of_close hclose ht₁
    obtain ⟨e, hrelated, hvalue⟩ := (meets_someProperty_page hp hpage).mp hmeets
    obtain ⟨τ, hupdated, hholds⟩ := hinner.faithful.complete t
      (Function.update σ (c.numbered (s₀.counter + 1)) e) ht (fun k hk => numbered_ne_of_lt hk)
      (by simpa using hvalue)
    obtain ⟨hagrees, hbound⟩ := hupdated.of_update hle
    rw [hcounter] at hagrees
    have hsame : τ join = σ join := hagrees join fun k hk _ => hjoin k hk
    refine ⟨τ, hagrees, ?_, hholds⟩
    rw [holds_link hclosure, hbound, hsame]
    exact hrelated
  · have hcounter := Progress.counter_close hclose
    have hclosure := SubqueryTable.propertyAt?_of_close hclose ht₁
    obtain ⟨hvalued, hvalue⟩ := (meets_someProperty_inline hp hpage).mp hmeets
    rw [← hcounter] at hjoin ⊢
    obtain ⟨τ, hagrees, hholds⟩ := hinner.faithful.complete t σ ht hjoin hvalue
    have hsame : τ v = σ v := hagrees v fun k hk _ => hjoin k hk
    refine ⟨τ, hagrees, ?_, hholds⟩
    rw [holds_hasValue hclosure, hsame]
    exact hvalued

end Properties

end Compiler

end WikiQuery
