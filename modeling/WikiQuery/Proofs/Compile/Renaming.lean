import WikiQuery.Proofs.Compile.Parallel

namespace WikiQuery

-- References to one and the same sub-query in two tables.
def SubqueryTable.Agree (t t' : SubqueryTable) (id id' : SubqueryId) : Prop :=
  ∃ q, t.get? id = some q ∧ t'.get? id' = some q

-- Two counters that have come equally far.
def Progress.InStep (m n : Nat) (s t : Progress) : Prop :=
  ∃ k, s.counter = m + k ∧ t.counter = n + k

namespace Compiler

variable {c : Compiler} {keys : SortKeys} {root v w : Variable} {m n : Nat}
  {target : Option SortTarget} {path : List Page}

-- The variables of two compilations on one variable, which count from different numbers: that
-- variable itself, and the fresh variables that come at the same place.
def Paired (c : Compiler) (root : Variable) (m n : Nat) (v w : Variable) : Prop :=
  (v = root ∧ w = root) ∨ ∃ i, 1 ≤ i ∧ v = c.numbered (m + i) ∧ w = c.numbered (n + i)

-- The names of two such compilations. Sorted is by paired variables, or by their sort keys.
def pairing (c : Compiler) (root : Variable) (m n : Nat) (t t' : SubqueryTable) :
    Correspondence where
  entity := c.Paired root m n
  sort x y := c.Paired root m n x y ∨ ∃ v w, c.Paired root m n v w ∧
    x = v.withSuffix c.settings.sortSuffix ∧ y = w.withSuffix c.settings.sortSuffix
  closure := t.Agree t'

theorem Paired.symm (h : c.Paired root m n v w) : c.Paired root n m w v := by
  rcases h with ⟨hv, hw⟩ | ⟨i, hi, hv, hw⟩
  · exact .inl ⟨hw, hv⟩
  · exact .inr ⟨i, hi, hw, hv⟩

theorem Paired.right_unique (hroot : ∀ k, root ≠ c.numbered k) {w' : Variable}
    (h : c.Paired root m n v w) (h' : c.Paired root m n v w') : w = w' := by
  rcases h with ⟨hv, hw⟩ | ⟨i, -, hv, hw⟩
  · rcases h' with ⟨-, hw'⟩ | ⟨j, -, hv', -⟩
    · rw [hw, hw']
    · exact absurd (hv.symm.trans hv') (hroot _)
  · rcases h' with ⟨hv', -⟩ | ⟨j, -, hv', hw'⟩
    · exact absurd (hv'.symm.trans hv) (hroot _)
    · have hij := numbered_injective (hv.symm.trans hv')
      rw [hw, hw', show i = j by omega]

theorem fits_pairing (hroot : ∀ k, root ≠ c.numbered k) (t t' : SubqueryTable) :
    (c.pairing root m n t t').Fits c.settings.sortSuffix where
  unique := ⟨fun _ _ _ h h' => h.symm.right_unique hroot h'.symm,
    fun _ _ _ h h' => h.right_unique hroot h'⟩
  plain h := .inl h
  suffixed h := .inr ⟨_, _, h, rfl, rfl⟩

-- Something holds of the names of two compilations, whatever their tables grow to be from here on.
def Lasts (c : Compiler) (root : Variable) (m n : Nat) (s t : Progress)
    (P : Correspondence → Prop) : Prop :=
  ∀ T T' : SubqueryTable, s.subqueries.entries <+: T.entries →
    t.subqueries.entries <+: T'.entries → P (c.pairing root m n T T')

theorem Lasts.now {s t : Progress} {P : Correspondence → Prop} (h : c.Lasts root m n s t P) :
    P (c.pairing root m n s.subqueries t.subqueries) :=
  h _ _ (List.prefix_refl _) (List.prefix_refl _)

-- A second compilation on a paired variable, whose counter has come equally far, follows the first.
def Follows (c : Compiler) (keys : SortKeys) (root : Variable) (m n : Nat) (path : List Page)
    (d : Description) (v : Variable) (target : Option SortTarget) (s : Progress) (b : Condition)
    (s' : Progress) : Prop :=
  ∀ w t, c.Paired root m n v w → s.InStep m n t → ∃ b' t',
    Compiles c keys path d w target t b' t' ∧ s'.InStep m n t' ∧
      c.Lasts root m n s' t' (c.Mirrors · b b')

-- References to one sub-query agree, in all tables that those at the end of two compilations grow
-- into.
theorem links_pairing {t t' T T' : SubqueryTable} (hT : t.entries <+: T.entries)
    (hT' : t'.entries <+: T'.entries) : (c.pairing root m n T T').Links t t' := by
  intro q hq hq'
  exact ⟨q, SubqueryTable.get?_mono hT (SubqueryTable.get?_register hq),
    SubqueryTable.get?_mono hT' (SubqueryTable.get?_register hq')⟩

-- Every compilation can be followed from anywhere: what it drops is dropped again, after the same
-- number of fresh variables.
theorem Compiles.follows (hroot : ∀ k, root ≠ c.numbered k) {d : Description} {s s' : Progress}
    {b : Condition} (h : Compiles c keys path d v target s b s') :
    c.Follows keys root m n path d v target s b s' := by
  rintro w t hvw ⟨k, hk, hk'⟩
  obtain ⟨b', t', h', habreast, hmirror⟩ := h.paralleled w t
  have hcounter := habreast.counter
  have hle := h.numbers.le
  refine ⟨b', t', h', ⟨s'.counter - m, by omega, by omega⟩, ?_⟩
  intro T T' hT hT'
  apply hmirror
  constructor
  · exact fits_pairing hroot T T'
  · exact hvw
  · intro i hi _
    exact .inr ⟨k + i, by omega, by rw [hk, Nat.add_assoc], by rw [hk', Nat.add_assoc]⟩
  · exact links_pairing hT hT'

-- However much was compiled before, a description compiles to the same condition but for the names:
-- fresh variables correspond by their place and closures by what they refer to.
theorem compile_alike (c : Compiler) (hc : c.Standard) (keys : SortKeys) (path : List Page)
    (d : Description) (join : Variable) (hjoin : ∀ k, join ≠ c.numbered k)
    (target : Option SortTarget) (w₁ w₂ : Work) :
    ∃ b₁ b₂ w₁' w₂' n, (c.compile keys path d join target).run.run w₁ = (.ok b₁, w₁') ∧
      (c.compile keys path d join target).run.run w₂ = (.ok b₂, w₂') ∧
      w₁'.counter = w₁.counter + n ∧ w₂'.counter = w₂.counter + n ∧
      b₁.Alike (c.pairing join w₁.counter w₂.counter w₁'.subqueries w₂'.subqueries) b₂ := by
  obtain ⟨b₁, w₁', hrun₁, h₁⟩ := compile_run hc path d join target w₁
  have hstart : w₁.progress.InStep w₁.counter w₂.counter w₂.progress := ⟨0, rfl, rfl⟩
  obtain ⟨b₂, t', h₂, ⟨n, hn₁, hn₂⟩, hmirror⟩ :=
    h₁.follows hjoin join w₂.progress (.inl ⟨rfl, rfl⟩) hstart
  obtain ⟨w₂', hrun₂, rfl⟩ := h₂.runs hc w₂ rfl
  exact ⟨b₁, b₂, w₁', w₂', n, hrun₁, hrun₂, hn₁, hn₂, hmirror.now.alike (fits_pairing hjoin _ _)⟩

-- The first branch is dropped after two fresh variables, for want of the category. The second one
-- sorts by a fresh variable, and finds one of its closures registered already, at another place.
theorem compile_alike_cities :
    let catalog := (({} : Catalog).addProperty "Has capital" .page).addCategory ⟨"City", 14⟩ 3
    let c : Compiler := { catalog }
    let keys := SortKeys.ofRequests [{ key := "Has capital" }]
    let d : Description := .disjunction
      [.someProperty { key := "Has capital" } (.someProperty { key := "Has capital" }
        (.inCategory [⟨"Village", 14⟩])),
      .someProperty { key := "Has capital" } (.inCategory [⟨"City", 14⟩]), .inNamespace 0]
    let w : Work := { counter := 7, subqueries := ⟨[.categories [3] 10, .categories [5] 10]⟩ }
    c.Standard ∧ (∀ k, (⟨"result"⟩ : Variable) ≠ c.numbered k) ∧
      ∃ b₁ b₂ w₁' w₂' n, (c.compile keys [] d ⟨"result"⟩ none).run.run {} = (.ok b₁, w₁') ∧
        (c.compile keys [] d ⟨"result"⟩ none).run.run w = (.ok b₂, w₂') ∧
        w₁'.counter = 0 + n ∧ w₂'.counter = 7 + n ∧
        b₁.Alike (c.pairing ⟨"result"⟩ 0 7 w₁'.subqueries w₂'.subqueries) b₂ := by
  intro _ c keys d w
  have hc : c.Standard := standard_of_builders rfl
  have hsettings : c.settings.fault? = none := by decide +kernel
  have hjoin : ∀ k, (⟨"result"⟩ : Variable) ≠ c.numbered k := result_ne_numbered hsettings
  exact ⟨hc, hjoin, compile_alike c hc keys [] d ⟨"result"⟩ hjoin none {} w⟩

end Compiler

end WikiQuery
