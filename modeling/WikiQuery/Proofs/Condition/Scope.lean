import WikiQuery.Proofs.Condition.Atoms

namespace WikiQuery

-- The variables of a side of a comparison.
def Operand.variables : Operand → List Variable
  | .entity v => [v]
  | .field _ v => [v]
  | .value _ => []
  | .text _ => []

def Test.variables : Test → List Variable
  | .compare left _ right => left.variables ++ right.variables
  | .regex operand _ _ => operand.variables

def Term.variable? : Term → Option Variable
  | .entity v => some v
  | .resource _ => none

namespace Clause

-- The variable that a clause introduces: of the ends of a triple the one that is the value.
def introduces? : Clause → Option Variable
  | .triple s p o _ => if p.inverse then s.variable? else o.variable?
  | _ => none

-- The variables that clauses introduce, in order.
def introduced (clauses : List Clause) : List Variable := clauses.filterMap introduces?

-- A triple leads from its subject to its object, and the other way if its property is inverse.
def Leads (v w : Variable) : Clause → Prop
  | .triple s p o _ =>
    if p.inverse then s = .entity w ∧ o = .entity v else s = .entity v ∧ o = .entity w
  | _ => False

mutual
-- A clause only speaks of variables in scope. A triple leads from one of them to another variable,
-- and each group of a union starts from what is in scope where the union stands.
def Scoped (scope : List Variable) : Clause → Prop
  | .triple s p o closure => ∃ v w, v ∈ scope ∧ Leads v w (.triple s p o closure)
  | .hasValue v _ _ => v ∈ scope
  | .inNamespace v _ => v ∈ scope
  | .inCategory v _ _ => v ∈ scope
  | .sortKey v key => v ∈ scope ∧ key ∈ scope
  | .filter f => ∀ test ∈ f, test.variables ⊆ scope
  | .union groups => ScopedEach scope groups

def ScopedEach (scope : List Variable) : List (List Clause) → Prop
  | [] => True
  | group :: groups => ScopedAll scope group ∧ ScopedEach scope groups

-- In a list of clauses, what a triple introduces is in scope behind it.
def ScopedAll (scope : List Variable) : List Clause → Prop
  | [] => True
  | clause :: rest => Scoped scope clause ∧ ScopedAll (scope ++ clause.introduces?.toList) rest
end

theorem leads_iff {s o : Term} {p : Property} {closure : Option SubqueryId} {v w : Variable} :
    (triple s p o closure).Leads v w ↔
      (p.inverse = true ∧ s = .entity w ∧ o = .entity v) ∨
      (p.inverse = false ∧ s = .entity v ∧ o = .entity w) := by
  cases hp : p.inverse <;> simp [Leads, hp]

theorem Leads.introduces? {s o : Term} {p : Property} {closure : Option SubqueryId}
    {v w : Variable} (h : (triple s p o closure).Leads v w) :
    (triple s p o closure).introduces? = some w := by
  rcases leads_iff.mp h with ⟨hp, rfl, -⟩ | ⟨hp, -, rfl⟩
  · simp [Clause.introduces?, hp, Term.variable?]
  · simp [Clause.introduces?, hp, Term.variable?]

theorem scopedEach_iff {scope : List Variable} {groups : List Pattern} :
    ScopedEach scope groups ↔ ∀ group ∈ groups, ScopedAll scope group := by
  induction groups with
  | nil => simp [ScopedEach]
  | cons group groups ih => simp [ScopedEach, ih]

theorem scopedAll_append {scope : List Variable} {p q : Pattern} :
    ScopedAll scope (p ++ q) ↔ ScopedAll scope p ∧ ScopedAll (scope ++ introduced p) q := by
  induction p generalizing scope with
  | nil => simp [ScopedAll, introduced]
  | cons clause rest ih =>
    have hscope : scope ++ introduced (clause :: rest) =
        (scope ++ clause.introduces?.toList) ++ introduced rest := by
      unfold introduced
      cases h : clause.introduces? with
      | none => simp [h]
      | some v => simp [h]
    rw [List.cons_append, ScopedAll, ScopedAll, ih, hscope, and_assoc]

theorem append_subset_append {α : Type} {l l' m m' : List α} (hl : l ⊆ l') (hm : m ⊆ m') :
    l ++ m ⊆ l' ++ m' :=
  List.append_subset.mpr ⟨List.Subset.trans hl (List.subset_append_left _ _),
    List.Subset.trans hm (List.subset_append_right _ _)⟩

theorem scopedAll_mono_of {p : Pattern}
    (h : ∀ clause ∈ p, ∀ scope scope' : List Variable, scope ⊆ scope' →
      Scoped scope clause → Scoped scope' clause)
    {scope scope' : List Variable} (hsub : scope ⊆ scope') (hp : ScopedAll scope p) :
    ScopedAll scope' p := by
  induction p generalizing scope scope' with
  | nil => exact trivial
  | cons clause rest ih =>
    have hhead := h clause (by simp) scope scope' hsub hp.1
    have htail := ih (fun clause hclause => h clause (List.mem_cons_of_mem _ hclause))
      (append_subset_append hsub (List.Subset.refl _)) hp.2
    exact ⟨hhead, htail⟩

theorem Scoped.mono {clause : Clause} {scope scope' : List Variable} (hsub : scope ⊆ scope')
    (h : Scoped scope clause) : Scoped scope' clause := by
  induction clause using nested_induction generalizing scope scope' with
  | triple s p o closure =>
    obtain ⟨v, w, hv, hleads⟩ := h
    exact ⟨v, w, hsub hv, hleads⟩
  | hasValue v p closure => exact hsub h
  | inNamespace v number => exact hsub h
  | inCategory v ids closure => exact hsub h
  | sortKey v key => exact ⟨hsub h.1, hsub h.2⟩
  | filter f => exact fun test htest => List.Subset.trans (h test htest) hsub
  | union groups ih =>
    refine scopedEach_iff.mpr ?_
    intro group hgroup
    exact scopedAll_mono_of (fun clause hclause _ _ hsub => ih group hgroup clause hclause hsub)
      hsub (scopedEach_iff.mp h group hgroup)

theorem ScopedAll.mono {p : Pattern} {scope scope' : List Variable} (hsub : scope ⊆ scope')
    (h : ScopedAll scope p) : ScopedAll scope' p :=
  scopedAll_mono_of (fun _ _ _ _ hsub h => h.mono hsub) hsub h

theorem introduced_append (p q : List Clause) :
    introduced (p ++ q) = introduced p ++ introduced q :=
  List.filterMap_append

theorem introduced_sublist_flatMap {α : Type} {l : List α} {a : α} (f : α → List Clause)
    (h : a ∈ l) : (introduced (f a)).Sublist (introduced (l.flatMap f)) := by
  have hsub : (f a).Sublist (l.flatMap f) := List.sublist_flatten_of_mem (List.mem_map_of_mem h)
  exact hsub.filterMap _

theorem introduced_atoms_subset (clause : Clause) :
    clause.introduces?.toList ⊆ introduced clause.atoms := by
  cases clause with
  | triple s p o closure =>
    intro v hv
    simp only [atoms]
    exact List.mem_filterMap.mpr ⟨_, List.mem_singleton_self _, Option.mem_toList.mp hv⟩
  | _ => simp [introduces?]

theorem ScopedAll.addFilter {scope : List Variable} {p : Pattern} {f : Filter}
    (hp : ScopedAll scope p) (hf : ∀ test ∈ f, Test.variables test ⊆ scope) :
    ScopedAll scope (p.addFilter f) := by
  unfold Pattern.addFilter
  split
  · exact hp
  · refine scopedAll_append.mpr ⟨hp, ?_, trivial⟩
    exact Scoped.mono (List.subset_append_left _ _) hf

-- Lists of clauses, each of them in scope by itself, are in scope one after the other.
theorem scopedAll_flatMap {α : Type} {scope : List Variable} {l : List α} {f : α → List Clause}
    (h : ∀ a ∈ l, ScopedAll scope (f a)) : ScopedAll scope (l.flatMap f) := by
  induction l with
  | nil => exact trivial
  | cons a rest ih =>
    rw [List.flatMap_cons]
    refine scopedAll_append.mpr ⟨h a (by simp), ?_⟩
    exact (ih fun b hb => h b (List.mem_cons_of_mem _ hb)).mono (List.subset_append_left _ _)

theorem scopedAll_atoms_of {p : Pattern}
    (h : ∀ clause ∈ p, ∀ scope, Scoped scope clause → ScopedAll scope clause.atoms)
    {scope : List Variable} (hp : ScopedAll scope p) : ScopedAll scope p.atoms := by
  induction p generalizing scope with
  | nil => exact trivial
  | cons clause rest ih =>
    have hrest := ih (fun clause hclause => h clause (List.mem_cons_of_mem _ hclause)) hp.2
    refine scopedAll_append.mpr ⟨h clause (by simp) scope hp.1, ?_⟩
    exact hrest.mono
      (append_subset_append (List.Subset.refl _) (introduced_atoms_subset clause))

-- Laid out flat, the clauses of a pattern are still in scope: behind a union there is only more.
theorem Scoped.atoms {clause : Clause} {scope : List Variable} (h : Scoped scope clause) :
    ScopedAll scope clause.atoms := by
  induction clause using nested_induction generalizing scope with
  | triple s p o closure => simpa [Clause.atoms, ScopedAll] using h
  | hasValue v p closure => simpa [Clause.atoms, ScopedAll] using h
  | inNamespace v number => simpa [Clause.atoms, ScopedAll] using h
  | inCategory v ids closure => simpa [Clause.atoms, ScopedAll] using h
  | sortKey v key => simpa [Clause.atoms, ScopedAll] using h
  | filter f => simp [Clause.atoms, ScopedAll]
  | union groups ih =>
    rw [Pattern.atoms_union]
    apply scopedAll_flatMap
    intro group hgroup
    exact scopedAll_atoms_of (fun clause hclause _ => ih group hgroup clause hclause)
      (scopedEach_iff.mp h group hgroup)

theorem ScopedAll.atoms {p : Pattern} {scope : List Variable} (h : ScopedAll scope p) :
    ScopedAll scope p.atoms :=
  scopedAll_atoms_of (fun _ _ _ h => h.atoms) h

end Clause

namespace Condition

-- A condition whose clauses and tests are in scope, each of its branches by itself.
def Scoped (scope : List Variable) : Condition → Prop
  | ⟨.everything, _⟩ => True
  | ⟨.nothing, _⟩ => True
  | ⟨.pattern p, _⟩ => Clause.ScopedAll scope p
  | ⟨.filter f, _⟩ => ∀ test ∈ f, test.variables ⊆ scope
  | ⟨.singleton _ p, _⟩ => Clause.ScopedAll scope p
  | ⟨.alternatives branches, _⟩ => ∀ b ∈ branches, Scoped scope b

-- The variables that the triples of a condition introduce, at any depth.
def introduced (c : Condition) : List Variable := Clause.introduced c.atoms

theorem scoped_congr {c d : Condition} {scope : List Variable} (h : c.form = d.form) :
    c.Scoped scope ↔ d.Scoped scope := by
  obtain ⟨form, a⟩ := c
  obtain ⟨form', b⟩ := d
  cases h
  cases form <;> simp only [Scoped]

theorem Scoped.toPattern? {c : Condition} {join : Variable} {scope : List Variable} {p : Pattern}
    (hjoin : join ∈ scope) (hc : c.Scoped scope) (h : c.toPattern? join = some p) :
    Clause.ScopedAll scope p := by
  induction c using nested_induction generalizing p with
  | node form a ih _ =>
    cases form with
    | everything => cases h; exact trivial
    | nothing => cases h
    | pattern q => cases h; simpa only [Scoped] using hc
    | filter f =>
      cases h
      simp only [Scoped] at hc
      exact Clause.ScopedAll.addFilter trivial hc
    | singleton r q =>
      cases h
      simp only [Scoped] at hc
      exact hc.addFilter (by simpa [Test.binds, Test.variables, Operand.variables] using hjoin)
    | alternatives branches =>
      cases h
      simp only [Scoped] at hc
      refine ⟨Clause.scopedEach_iff.mpr ?_, trivial⟩
      rw [branchPatterns_eq_filterMap]
      intro group hgroup
      obtain ⟨b, hb, hgroup⟩ := List.mem_filterMap.mp hgroup
      exact ih b hb (hc b hb) hgroup

theorem scoped_of_everything {c : Condition} {scope : List Variable} (h : c.form = .everything) :
    c.Scoped scope := by
  obtain ⟨form, a⟩ := c
  cases h
  simp [Scoped]

theorem scoped_of_nothing {c : Condition} {scope : List Variable} (h : c.form = .nothing) :
    c.Scoped scope := by
  obtain ⟨form, a⟩ := c
  cases h
  simp [Scoped]

theorem scoped_of_pattern {c : Condition} {scope : List Variable} {p : Pattern}
    (h : c.form = .pattern p) : c.Scoped scope ↔ Clause.ScopedAll scope p := by
  obtain ⟨form, a⟩ := c
  cases h
  rw [Scoped]

theorem scoped_of_filter {c : Condition} {scope : List Variable} {f : Filter}
    (h : c.form = .filter f) : c.Scoped scope ↔ ∀ test ∈ f, test.variables ⊆ scope := by
  obtain ⟨form, a⟩ := c
  cases h
  rw [Scoped]

theorem scoped_of_singleton {c : Condition} {scope : List Variable} {r : Resource} {p : Pattern}
    (h : c.form = .singleton r p) : c.Scoped scope ↔ Clause.ScopedAll scope p := by
  obtain ⟨form, a⟩ := c
  cases h
  rw [Scoped]

theorem Scoped.atoms {c : Condition} {scope : List Variable} (h : c.Scoped scope) :
    Clause.ScopedAll scope c.atoms := by
  induction c using nested_induction with
  | node form a ih _ =>
    cases form with
    | everything => simp [Condition.atoms, Clause.ScopedAll]
    | nothing => simp [Condition.atoms, Clause.ScopedAll]
    | pattern p =>
      simp only [Scoped] at h
      rw [Condition.atoms]
      exact h.atoms
    | filter f => simp [Condition.atoms, Clause.ScopedAll]
    | singleton r p =>
      simp only [Scoped] at h
      rw [Condition.atoms]
      exact h.atoms
    | alternatives branches =>
      simp only [Scoped] at h
      rw [Condition.atoms]
      exact Clause.scopedAll_flatMap fun b hb => ih b hb (h b hb)

theorem Scoped.branch {c b : Condition} {scope : List Variable} (h : c.Scoped scope)
    (hb : b ∈ c.form.branches) : b.Scoped scope := by
  obtain ⟨form, a⟩ := c
  cases form with
  | alternatives branches =>
    rw [Scoped] at h
    exact h b hb
  | _ => cases hb

theorem introduced_branch {c b : Condition} (hb : b ∈ c.form.branches) :
    b.introduced.Sublist c.introduced := by
  obtain ⟨form, a⟩ := c
  cases form with
  | alternatives branches =>
    unfold introduced
    rw [Condition.atoms]
    exact Clause.introduced_sublist_flatMap Condition.atoms hb
  | _ => cases hb

end Condition

namespace Merge

def Scoped (scope : List Variable) (m : Merge) : Prop :=
  Clause.ScopedAll scope m.pattern ∧ ∀ test ∈ m.filter, test.variables ⊆ scope

theorem Scoped.absorb? {join : Variable} {scope : List Variable} {m m' : Merge} {c : Condition}
    (hjoin : join ∈ scope) (hm : m.Scoped scope) (hc : c.Scoped scope)
    (h : m.absorb? join c = some m') : m'.Scoped scope := by
  obtain ⟨p, f, rfl, hcases⟩ := absorb?_cases h
  have hadded : Clause.ScopedAll scope p ∧ ∀ test ∈ f, test.variables ⊆ scope := by
    rcases hcases with ⟨-, rfl, rfl⟩ | ⟨hform, rfl⟩ | ⟨hform, rfl⟩ | ⟨r, hform, rfl⟩ |
      ⟨branches, -, hgroup, rfl⟩
    · exact ⟨trivial, by simp⟩
    · exact ⟨trivial, (Condition.scoped_of_filter hform).mp hc⟩
    · exact ⟨(Condition.scoped_of_pattern hform).mp hc, by simp⟩
    · exact ⟨(Condition.scoped_of_singleton hform).mp hc, by simp⟩
    · exact ⟨hc.toPattern? hjoin hgroup, by simp⟩
  refine ⟨Clause.scopedAll_append.mpr ⟨hm.1, ?_⟩, List.forall_mem_append.mpr ⟨hm.2, hadded.2⟩⟩
  exact hadded.1.mono (List.subset_append_left _ _)

theorem scoped_all? {join : Variable} {scope : List Variable} {conditions : List Condition}
    {m : Merge} (hjoin : join ∈ scope) (hc : ∀ c ∈ conditions, c.Scoped scope)
    (h : all? join conditions = some m) : m.Scoped scope := by
  refine all_induction (P := fun done m => (∀ c ∈ done, c.Scoped scope) → m.Scoped scope)
    ?_ ?_ h hc
  · intro _
    exact ⟨trivial, by simp⟩
  · intro done m c m' hdone habsorb hscoped
    obtain ⟨hbefore, hlast⟩ := List.forall_mem_append.mp hscoped
    exact (hdone hbefore).absorb? hjoin (hlast c (by simp)) habsorb

theorem Scoped.finish {scope : List Variable} {m : Merge} (hm : m.Scoped scope) :
    m.finish.Scoped scope := by
  have hpattern := hm.1.addFilter hm.2
  unfold Merge.finish Merge.form
  cases m.bound with
  | some r => exact (Condition.scoped_of_singleton rfl).mpr hpattern
  | none =>
    by_cases hp : m.pattern = []
    · by_cases hf : m.filter = []
      · exact Condition.scoped_of_everything (by simp [hp, hf])
      · exact (Condition.scoped_of_filter (by simp [hp, hf])).mpr hm.2
    · exact (Condition.scoped_of_pattern (by simp [hp])).mpr hpattern

end Merge

theorem Compiler.scoped_alternativesCondition {scope : List Variable} {branches : List Condition}
    (h : ∀ b ∈ branches, b.Scoped scope) : (alternativesCondition branches).Scoped scope := by
  match branches with
  | [] => exact Condition.scoped_of_nothing rfl
  | [branch] => exact h branch (by simp)
  | first :: second :: rest =>
    change Condition.Scoped scope ⟨.alternatives (first :: second :: rest), _⟩
    rw [Condition.Scoped]
    exact h

end WikiQuery
