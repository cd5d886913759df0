import WikiQuery.Proofs.Compile.Invariant
import WikiQuery.Proofs.Condition.Gather

namespace WikiQuery

-- What selects entities rather than only testing them: a clause, or the resource that a variable is
-- bound to.
inductive Selector where
  | clause (clause : Clause)
  | resource (r : Resource)

namespace Survey

def selectors : Survey Selector where
  clause
    | .triple s p o closure => [.clause (.triple s p o closure)]
    | .hasValue v p closure => [.clause (.hasValue v p closure)]
    | .inNamespace v number => [.clause (.inNamespace v number)]
    | .inCategory v ids closure => [.clause (.inCategory v ids closure)]
    | _ => []
  test
    | .compare (.entity _) .eq (.value (.page r)) => [.resource r]
    | _ => []
  resource r := [.resource r]

theorem fair_selectors : selectors.Fair := fun _ _ => rfl

end Survey

theorem Attachments.safe_foldl (conditions : List Condition) (a : Attachments Condition) :
    (conditions.foldl (fun a b => a.merge b.attachments) a).safe = true ↔
      a.safe = true ∨ ∃ b ∈ conditions, b.safe = true := by
  induction conditions generalizing a with
  | nil => simp
  | cons b rest ih =>
    rw [List.foldl_cons, ih]
    simp [Attachments.merge, Condition.safe, or_assoc]

namespace Condition

-- What selects entities in a condition, at any depth.
def selectors (c : Condition) : List Selector := c.gather .selectors

-- A condition is safe just if something in it selects entities.
def SafelySelects (c : Condition) : Prop := c.safe = true ↔ ∃ x, x ∈ c.selectors

end Condition

namespace Merge

variable {join : Variable} {m m' : Merge}

def SafelySelects (m : Merge) : Prop :=
  m.attachments.safe = true ↔ ∃ x, x ∈ m.gather .selectors

-- If the variable is bound already, then what is merged goes on to select its resource.
theorem SafelySelects.absorb? {c : Condition} (hm : m.SafelySelects) (hc : c.SafelySelects)
    (h : m.absorb? join c = some m') : m'.SafelySelects := by
  obtain ⟨hsub, hkept⟩ := gather_absorb? Survey.fair_selectors h
  have hsafe : m'.attachments.safe = (m.attachments.safe || c.safe) := by
    obtain ⟨p, f, rfl, -⟩ := absorb?_cases h
    rfl
  have hmerged : (m.attachments.safe || c.safe) = true ↔
      ∃ x, x ∈ m.gather .selectors ++ c.gather .selectors := by
    simp only [Bool.or_eq_true, List.mem_append, exists_or]
    exact or_congr hm hc
  unfold SafelySelects
  rw [hsafe, hmerged]
  constructor
  · rintro ⟨x, hx⟩
    cases hbound : m.bound with
    | none => exact ⟨x, hkept hbound hx⟩
    | some r =>
      obtain ⟨p, f, rfl, -⟩ := absorb?_cases h
      exact ⟨.resource r, by simp [gather, hbound, Survey.selectors]⟩
  · rintro ⟨x, hx⟩
    exact ⟨x, hsub hx⟩

theorem safelySelects_all? {conditions : List Condition}
    (hc : ∀ c ∈ conditions, c.SafelySelects) (h : all? join conditions = some m) :
    m.SafelySelects := by
  refine all_induction (P := fun done m => (∀ c ∈ done, c.SafelySelects) → m.SafelySelects)
    ?_ ?_ h hc
  · simp [SafelySelects, gather]
  · intro done m c m' hdone habsorb hall
    obtain ⟨hbefore, hlast⟩ := List.forall_mem_append.mp hall
    exact (hdone hbefore).absorb? (hlast c (by simp)) habsorb

theorem SafelySelects.finish (hm : m.SafelySelects) : m.finish.SafelySelects := by
  unfold Condition.SafelySelects Condition.selectors
  rw [gather_finish]
  exact hm

end Merge

namespace Compiler

variable {c : Compiler} {keys : SortKeys} {join : Variable}

theorem selectors_opening {v : Variable} {p : Property} {info : PropertyInfo} {s s₁ : Progress}
    {clause : Clause} (h : c.opening join p info s = ((clause, v), s₁)) :
    clause.gather .selectors = [.clause clause] := by
  obtain ⟨closure, s₀, -, ⟨-, -, rfl, -⟩ | ⟨-, -, rfl, -⟩⟩ := opening_cases h
  · unfold link
    cases p.inverse <;> simp [Clause.gather, Survey.selectors]
  · simp [Clause.gather, Survey.selectors]

-- Fields are tested, and never the entity itself.
theorem selectors_testsField {test : Test} (h : TestsField join test) :
    Survey.selectors.test test = [] := by
  unfold TestsField at h
  split at h
  · rfl
  · rfl
  · rfl
  · cases h

theorem safe_declareValue (x : Value) (condition : Condition) :
    (declareValue x condition).safe = condition.safe := by
  unfold declareValue
  split <;> rfl

theorem safelySelects_compared (p : Property) (comparator : Comparator) (x : Value) :
    (c.comparedCondition keys join none p comparator x).SafelySelects := by
  unfold comparedCondition Condition.SafelySelects Condition.selectors
  cases h : c.valueCondition? join p comparator x with
  | none => simp [attachSort, Condition.everything, Condition.safe, Condition.gather]
  | some condition =>
    dsimp only [attachSort]
    rw [Condition.gather_eq_of_form (form_declareValue x condition), safe_declareValue]
    rcases valueCondition?_tests h with ⟨r, -, rfl⟩ | ⟨test, rfl, htest⟩
    · simp [Condition.safe, Condition.gather, Survey.selectors]
    · simp [Condition.safe, Condition.ofFilter, Condition.gather, selectors_testsField htest]

theorem safelySelects_property {v : Variable} {p : Property} {info : PropertyInfo}
    {s s₁ : Progress} {clause : Clause} {inner : Condition} {group : Pattern}
    (hopen : c.opening join p info s = ((clause, v), s₁)) :
    (c.propertyCondition keys join none p clause inner group).SafelySelects := by
  have hsafe : (c.propertyCondition keys join none p clause inner group).safe = true := by
    unfold propertyCondition
    cases p.vocabulary <;> rfl
  unfold Condition.SafelySelects Condition.selectors
  rw [hsafe, Condition.gather_of_pattern (form_propertyCondition ..), Pattern.gather_cons,
    selectors_opening hopen]
  simp

theorem invariant_safelySelects :
    c.Invariant keys (fun _ => True) Condition.SafelySelects where
  sorts := by
    intro b b' hform _ hsafe hb
    unfold Condition.SafelySelects Condition.selectors
    rw [hsafe, Condition.gather_eq_of_form hform]
    exact hb
  nothing := by
    rw [Condition.SafelySelects, Condition.selectors, Condition.gather_of_nothing rfl]
    simp [Condition.nothing, Condition.safe]
  everything := by
    rw [Condition.SafelySelects, Condition.selectors, Condition.gather_of_everything rfl]
    simp [Condition.everything, Condition.safe]
  inNamespace join number := by
    have hsafe : (c.namespaceCondition keys join none number).safe = true := rfl
    rw [Condition.SafelySelects, Condition.selectors,
      Condition.gather_of_pattern (form_namespaceCondition ..), hsafe]
    simp [Clause.gather, Survey.selectors]
  inCategory join ids closure := by
    have hsafe : (c.categoryCondition keys join none ids closure).safe = true := rfl
    rw [Condition.SafelySelects, Condition.selectors,
      Condition.gather_of_pattern (form_categoryCondition ..), hsafe]
    simp [Clause.gather, Survey.selectors]
  value _ _ := safelySelects_compared ..
  someProperty _ hopen _ _ := safelySelects_property hopen
  merge hb hm := (Merge.safelySelects_all? hb hm).finish
  alternatives := by
    intro branches hb
    have hsafe := Attachments.safe_foldl branches {}
    rw [Condition.SafelySelects, Condition.selectors, Condition.gather_of_alternatives rfl]
    refine hsafe.trans ?_
    simp only [Bool.false_eq_true, false_or, List.mem_flatMap]
    constructor
    · rintro ⟨b, hmem, hb'⟩
      obtain ⟨x, hx⟩ := (hb b hmem).mp hb'
      exact ⟨x, b, hmem, hx⟩
    · rintro ⟨x, b, hmem, hx⟩
      exact ⟨b, hmem, (hb b hmem).mpr ⟨x, hx⟩⟩

theorem hereditary_true (catalog : Catalog) : catalog.Hereditary fun _ => True := by
  constructor <;> simp

-- Whatever is compiled, its condition is safe just if something in it selects entities, and so is
-- each of its branches.
theorem compile_safe_iff (c : Compiler) (hc : c.Standard) (keys : SortKeys) (path : List Page)
    (d : Description) (join : Variable) (target : Option SortTarget) (w : Work) :
    ∃ condition w', (c.compile keys path d join target).run.run w = (.ok condition, w') ∧
      ∀ b ∈ condition.choices, b.safe = true ↔ ∃ x, x ∈ b.selectors := by
  obtain ⟨condition, w', hrun, h⟩ := compile_run hc path d join target w
  exact ⟨condition, w', hrun, h.keeps invariant_safelySelects (hereditary_true _) trivial⟩

-- One branch is a union with a page in one of its groups, and the other one only tests nicknames.
theorem compile_safe_iff_nicknames :
    let c : Compiler := { catalog := ({} : Catalog).addProperty "Nickname" .text }
    let d : Description := .disjunction
      [.conjunction [.disjunction [.value { key := "Name" } .eq (.page (.page ⟨"Ada Lovelace", 0⟩)),
          .value { key := "Nickname" } .eq (.text "Ada")],
        .value { key := "Nickname" } .like (.text "A*")],
      .value { key := "Nickname" } .eq (.text "Countess")]
    c.Standard ∧ ∃ condition w', (c.compile ∅ [] d ⟨"result"⟩ none).run.run { counter := 4 } =
        (.ok condition, w') ∧
      ∀ b ∈ condition.choices, b.safe = true ↔ ∃ x, x ∈ b.selectors := by
  intro c d
  have hc : c.Standard := standard_of_builders rfl
  exact ⟨hc, compile_safe_iff c hc ∅ [] d ⟨"result"⟩ none { counter := 4 }⟩

-- A choice between two resources is safe, though it is no resource itself and has no clauses and no
-- tests.
theorem compile_safe_resources :
    let c : Compiler := {}
    let ada : Resource := .page ⟨"Ada Lovelace", 0⟩
    let charles : Resource := .page ⟨"Charles Babbage", 0⟩
    let d : Description := .disjunction
      [.value { key := "Name" } .eq (.page ada), .value { key := "Name" } .eq (.page charles)]
    ∃ condition w', (c.compile ∅ [] d ⟨"result"⟩ none).run.run {} = (.ok condition, w') ∧
      condition.form = .alternatives [⟨.singleton ada [], { safe := true }⟩,
        ⟨.singleton charles [], { safe := true }⟩] ∧
      ¬ (condition.safe = true ↔ condition.bound?.isSome = true ∨
        ∃ x, x ∈ condition.gather { Survey.selectors with resource := fun _ => [] }) := by
  intro c ada charles d
  have hc : c.Standard := standard_of_builders rfl
  have h : c.Compiles ∅ [] d ⟨"result"⟩ none {} _ {} :=
    .disjunction (fun _ _ _ _ h => h) (.cons (.value ..) (.cons (.value ..) .nil)) (by
      intro b hb
      simp only [List.mem_cons, List.not_mem_nil, or_false] at hb
      rcases hb with rfl | rfl <;> rfl)
  have hclauses : ∀ b : Condition,
      b.form = .alternatives [⟨.singleton ada [], { safe := true }⟩,
        ⟨.singleton charles [], { safe := true }⟩] →
      b.gather { Survey.selectors with resource := fun _ => [] } = [] := by
    intro b hb
    rw [Condition.gather_of_alternatives hb]
    simp [Condition.gather]
  obtain ⟨w', hrun, -⟩ := h.runs hc {} rfl
  refine ⟨_, w', hrun, rfl, ?_⟩
  intro hiff
  rcases hiff.mp rfl with hbound | ⟨x, hx⟩
  · cases hbound
  · rw [hclauses _ rfl] at hx
    cases hx

end Compiler

end WikiQuery
