import WikiQuery.Proofs.Compile.Invariant
import WikiQuery.Proofs.Condition.Gather

namespace WikiQuery

def Value.vocabulary? (x : Value) : Option Vocabulary := x.resource? >>= Resource.vocabulary?

def Term.vocabulary? : Term → Option Vocabulary
  | .entity _ => none
  | .resource r => r.vocabulary?

def Operand.vocabulary? : Operand → Option Vocabulary
  | .value x => x.vocabulary?
  | _ => none

namespace Survey

def vocabularies : Survey Vocabulary where
  clause
    | .triple s p o _ => s.vocabulary?.toList ++ p.vocabulary.toList ++ o.vocabulary?.toList
    | .hasValue _ p _ => p.vocabulary.toList
    | _ => []
  test
    | .compare left _ right => left.vocabulary?.toList ++ right.vocabulary?.toList
    | .regex operand _ _ => operand.vocabulary?.toList
  resource r := r.vocabulary?.toList

theorem fair_vocabularies : vocabularies.Fair := fun _ _ => rfl

end Survey

-- The vocabularies to which a condition refers, at any depth.
def Condition.references (c : Condition) : List Vocabulary := c.gather .vocabularies

-- The vocabularies of the values and properties of a description. A comparison with a value takes
-- no more than the key of its property, so the vocabulary of that one does not count.
def Description.vocabularies : Description → List Vocabulary
  | .value _ _ x => x.vocabulary?.toList
  | .someProperty p inner => p.vocabulary.toList ++ inner.vocabularies
  | .conjunction parts => parts.flatMap vocabularies
  | .disjunction parts => parts.flatMap vocabularies
  | _ => []

-- A vocabulary occurs in a description, or in the definition of a concept.
def Catalog.Mentions (c : Catalog) (d : Description) (v : Vocabulary) : Prop :=
  v ∈ d.vocabularies ∨
    ∃ page definition, c.concept? page = some definition ∧ v ∈ definition.vocabularies

namespace Catalog

variable {c : Catalog} {A : Vocabulary → Prop}

-- The vocabularies of a description are all of a kind, as are those of all concepts.
theorem hereditary_vocabularies
    (hconcepts : ∀ {page definition}, c.concept? page = some definition →
      ∀ v ∈ definition.vocabularies, A v) :
    c.Hereditary fun d => ∀ v ∈ d.vocabularies, A v where
  concept hsome _ := hconcepts hsome
  someProperty h v hv := by
    apply h
    rw [Description.vocabularies]
    exact List.mem_append_right _ hv
  conjunction h part hpart v hv := by
    apply h
    rw [Description.vocabularies]
    exact List.mem_flatMap.mpr ⟨part, hpart, hv⟩
  disjunction h part hpart v hv := by
    apply h
    rw [Description.vocabularies]
    exact List.mem_flatMap.mpr ⟨part, hpart, hv⟩

end Catalog

-- Vocabularies, all of a kind, have their labels declared, and nothing else is declared than
-- vocabularies of that kind.
structure Attachments.Declares (A : Vocabulary → Prop) (a : Attachments Condition)
    (vs : List Vocabulary) : Prop where
  allowed : ∀ v ∈ vs, A v
  declared : ∀ v ∈ vs, a.vocabularies.contains v.label = true
  mentioned : ∀ label uri, a.vocabularies.get? label = some uri → A ⟨label, uri⟩

namespace Attachments.Declares

variable {A : Vocabulary → Prop} {a b : Attachments Condition} {vs ws : List Vocabulary}

theorem nil (h : a.vocabularies = ∅) : a.Declares A [] where
  allowed := by simp
  declared := by simp
  mentioned := by simp [h]

theorem subset (h : a.Declares A vs) (hsub : ws ⊆ vs) : a.Declares A ws where
  allowed v hv := h.allowed v (hsub hv)
  declared v hv := h.declared v (hsub hv)
  mentioned := h.mentioned

theorem congr (h : a.Declares A vs) (heq : b.vocabularies = a.vocabularies) :
    b.Declares A vs where
  allowed := h.allowed
  declared := by
    rw [heq]
    exact h.declared
  mentioned := by
    rw [heq]
    exact h.mentioned

theorem merge (ha : a.Declares A vs) (hb : b.Declares A ws) :
    (a.merge b).Declares A (vs ++ ws) where
  allowed := List.forall_mem_append.mpr ⟨ha.allowed, hb.allowed⟩
  declared := by
    refine List.forall_mem_append.mpr ⟨?_, ?_⟩
    · intro v hv
      exact KeyMap.contains_union.mpr (.inl (ha.declared v hv))
    · intro v hv
      exact KeyMap.contains_union.mpr (.inr (hb.declared v hv))
  mentioned := by
    intro label uri h
    have hget : (a.vocabularies.get? label).or (b.vocabularies.get? label) = some uri :=
      (KeyMap.get?_union ..).symm.trans h
    rcases Option.or_eq_some_iff.mp hget with h | ⟨-, h⟩
    · exact ha.mentioned label uri h
    · exact hb.mentioned label uri h

theorem foldl {conditions : List Condition} (ha : a.Declares A vs)
    (h : ∀ b ∈ conditions, b.attachments.Declares A b.references) :
    (conditions.foldl (fun a b => a.merge b.attachments) a).Declares A
      (vs ++ conditions.flatMap Condition.references) := by
  induction conditions generalizing a vs with
  | nil => simpa using ha
  | cons b rest ih =>
    obtain ⟨hb, hrest⟩ := List.forall_mem_cons.mp h
    simpa using ih (ha.merge hb) hrest

theorem declare {c : Condition} {v : Vocabulary} (h : c.attachments.Declares A vs) (hv : A v) :
    (c.declare v).attachments.Declares A (v :: vs) where
  allowed := List.forall_mem_cons.mpr ⟨hv, h.allowed⟩
  declared := by
    refine List.forall_mem_cons.mpr ⟨KeyMap.contains_insertNew.mpr (.inl rfl), ?_⟩
    intro w hw
    exact KeyMap.contains_insertNew.mpr (.inr (h.declared w hw))
  mentioned := by
    intro label uri hget
    have hor : (c.attachments.vocabularies.get? label).or
        (if label = v.label then some v.uri else none) = some uri :=
      (KeyMap.get?_insertNew ..).symm.trans hget
    rcases Option.or_eq_some_iff.mp hor with hold | ⟨-, hnew⟩
    · exact h.mentioned label uri hold
    · obtain ⟨rfl, huri⟩ := Option.ite_none_right_eq_some.mp hnew
      cases huri
      exact hv

-- If labels tell the vocabularies apart, then what is declared for a label is no other vocabulary.
theorem get?_eq (h : a.Declares A vs)
    (hA : ∀ v w, A v → A w → v.label = w.label → v.uri = w.uri) {v : Vocabulary} (hv : v ∈ vs) :
    a.vocabularies.get? v.label = some v.uri := by
  obtain ⟨uri, huri⟩ := Option.isSome_iff_exists.mp (h.declared v hv)
  have heq := hA v ⟨v.label, uri⟩ (h.allowed v hv) (h.mentioned _ _ huri) rfl
  rw [huri, heq]

end Attachments.Declares

-- A condition declares the vocabularies to which it refers.
def Condition.Declares (A : Vocabulary → Prop) (c : Condition) : Prop :=
  c.attachments.Declares A c.references

theorem Merge.declares_all? {A : Vocabulary → Prop} {join : Variable}
    {conditions : List Condition} {m : Merge} (hc : ∀ c ∈ conditions, c.Declares A)
    (h : all? join conditions = some m) : m.finish.Declares A := by
  have hm : m.attachments.Declares A (m.gather .vocabularies) := by
    refine all_induction (P := fun done m => (∀ c ∈ done, c.Declares A) →
      m.attachments.Declares A (m.gather .vocabularies)) ?_ ?_ h hc
    · intro _
      exact .nil rfl
    · intro done m c m' hdone habsorb hall
      obtain ⟨hbefore, hlast⟩ := List.forall_mem_append.mp hall
      have hmerged := (hdone hbefore).merge (hlast c (by simp))
      have hsub := (gather_absorb? Survey.fair_vocabularies habsorb).1
      obtain ⟨p, f, rfl, -⟩ := absorb?_cases habsorb
      exact hmerged.subset hsub
  unfold Condition.Declares Condition.references
  rw [gather_finish]
  exact hm

namespace Compiler

variable {c : Compiler} {keys : SortKeys} {A : Vocabulary → Prop} {join : Variable}

theorem vocabularies_testsField {test : Test} (h : TestsField join test) :
    Survey.vocabularies.test test = [] := by
  unfold TestsField at h
  split at h
  · rfl
  · simp [Survey.vocabularies, Operand.vocabulary?, Value.vocabulary?, h.2]
  · rfl
  · cases h

theorem vocabularies_opening {v : Variable} {p : Property} {info : PropertyInfo} {s s₁ : Progress}
    {clause : Clause} (h : c.opening join p info s = ((clause, v), s₁)) :
    clause.gather .vocabularies = p.vocabulary.toList := by
  obtain ⟨closure, s₀, -, ⟨-, -, rfl, -⟩ | ⟨-, -, rfl, -⟩⟩ := opening_cases h
  · unfold link
    cases p.inverse <;> simp [Clause.gather, Survey.vocabularies, Term.vocabulary?]
  · simp [Clause.gather, Survey.vocabularies]

theorem declares_declareValue {x : Value} {condition : Condition} {vs : List Vocabulary}
    (h : condition.attachments.Declares A vs) (hx : ∀ v ∈ x.vocabulary?, A v) :
    (declareValue x condition).attachments.Declares A (x.vocabulary?.toList ++ vs) := by
  unfold Value.vocabulary? at hx ⊢
  unfold declareValue
  cases hv : x.resource? >>= Resource.vocabulary? with
  | none => exact h
  | some v => exact h.declare (hx v hv)

theorem declares_compared {p : Property} {comparator : Comparator} {x : Value}
    (hx : ∀ v ∈ x.vocabulary?, A v) :
    (c.comparedCondition keys join none p comparator x).Declares A := by
  unfold comparedCondition Condition.Declares Condition.references
  cases h : c.valueCondition? join p comparator x with
  | none =>
    dsimp only [attachSort]
    rw [Condition.gather_of_everything rfl]
    exact .nil rfl
  | some condition =>
    dsimp only [attachSort]
    rw [Condition.gather_eq_of_form (form_declareValue x condition)]
    have hdeclared : ∀ condition : Condition, condition.attachments.vocabularies = ∅ →
        (declareValue x condition).attachments.Declares A x.vocabulary?.toList := by
      intro condition hempty
      simpa using declares_declareValue (.nil hempty) hx
    rcases valueCondition?_tests h with ⟨r, rfl, rfl⟩ | ⟨test, rfl, htest⟩
    · rw [Condition.gather_of_singleton rfl]
      exact hdeclared _ rfl
    · rw [Condition.gather_of_filter rfl, List.flatMap_singleton, vocabularies_testsField htest]
      exact (hdeclared _ rfl).subset (List.nil_subset _)

theorem declares_property {v : Variable} {p : Property} {info : PropertyInfo} {s s₁ : Progress}
    {clause : Clause} {inner : Condition} {group : Pattern}
    (hopen : c.opening join p info s = ((clause, v), s₁))
    (hgroup : inner.toPattern? v = some group) (hp : ∀ v ∈ p.vocabulary, A v)
    (hinner : inner.Declares A) :
    (c.propertyCondition keys join none p clause inner group).Declares A := by
  unfold Condition.Declares Condition.references
  rw [Condition.gather_of_pattern (form_propertyCondition ..), Pattern.gather_cons,
    vocabularies_opening hopen, Condition.gather_toPattern? Survey.fair_vocabularies hgroup]
  have hsafe : ({ inner.attachments with safe := true } : Attachments Condition).Declares A
      inner.references := hinner.congr rfl
  unfold propertyCondition
  cases hv : p.vocabulary with
  | none => exact hsafe
  | some v =>
    exact Attachments.Declares.declare (c := ⟨.pattern (clause :: group), _⟩) hsafe (hp v hv)

theorem invariant_declares :
    c.Invariant keys (fun d => ∀ v ∈ d.vocabularies, A v) (Condition.Declares A) where
  sorts := by
    intro b b' hform hvocabularies _ hb
    unfold Condition.Declares Condition.references
    rw [Condition.gather_eq_of_form hform]
    exact Attachments.Declares.congr hb hvocabularies
  nothing := by
    rw [Condition.Declares, Condition.references, Condition.gather_of_nothing rfl]
    exact .nil rfl
  everything := by
    rw [Condition.Declares, Condition.references, Condition.gather_of_everything rfl]
    exact .nil rfl
  inNamespace join number := by
    rw [Condition.Declares, Condition.references,
      Condition.gather_of_pattern (form_namespaceCondition ..)]
    simp only [Pattern.gather_cons, Pattern.gather_nil, Clause.gather]
    exact .nil rfl
  inCategory join ids closure := by
    rw [Condition.Declares, Condition.references,
      Condition.gather_of_pattern (form_categoryCondition ..)]
    simp only [Pattern.gather_cons, Pattern.gather_nil, Clause.gather]
    exact .nil rfl
  value := by
    intro p comparator x hd join
    apply declares_compared
    intro v hv
    apply hd
    rw [Description.vocabularies]
    exact Option.mem_toList.mpr hv
  someProperty := by
    intro join p info s clause v s₁ inner b group hd hopen hgroup hb
    refine declares_property hopen hgroup ?_ hb
    intro v hv
    apply hd
    rw [Description.vocabularies]
    exact List.mem_append_left _ (Option.mem_toList.mpr hv)
  merge hb hm := Merge.declares_all? hb hm
  alternatives := by
    intro branches hb
    rw [Condition.Declares, Condition.references, Condition.gather_of_alternatives rfl]
    exact Attachments.Declares.foldl (.nil rfl) hb

end Compiler

-- In a query and in each of its branches, every vocabulary that is referred to is declared, and
-- only vocabularies are declared that the description or a concept mentions. So a reference can
-- lead to another vocabulary only if two of those share their label.
theorem Session.query_declares (s : Session) (hc : s.compiler.Standard) (d : Description)
    (sorts : List RequestedSort) :
    ∃ q s', s.query d sorts = (.ok q, s') ∧ ∀ b ∈ q.condition.choices,
      (∀ v ∈ b.references, b.attachments.vocabularies.contains v.label = true) ∧
      (∀ label uri, b.attachments.vocabularies.get? label = some uri →
        s.compiler.catalog.Mentions d ⟨label, uri⟩) ∧
      ((∀ v w, s.compiler.catalog.Mentions d v → s.compiler.catalog.Mentions d w →
          v.label = w.label → v.uri = w.uri) →
        ∀ v ∈ b.references, b.attachments.vocabularies.get? v.label = some v.uri) := by
  obtain ⟨condition, p, s', h, hquery⟩ := s.query_run hc d sorts
  refine ⟨_, s', hquery, ?_⟩
  intro b hb
  have hconcepts : ∀ {page definition}, s.compiler.catalog.concept? page = some definition →
      ∀ v ∈ definition.vocabularies, s.compiler.catalog.Mentions d v :=
    fun hsome v hv => .inr ⟨_, _, hsome, hv⟩
  have hdeclares := h.keeps Compiler.invariant_declares
    (Catalog.hereditary_vocabularies hconcepts) (fun v hv => .inl hv) b hb
  refine ⟨hdeclares.declared, hdeclares.mentioned, ?_⟩
  intro hapart v hv
  exact hdeclares.get?_eq hapart hv

-- One vocabulary comes with a concept, and the other one with a property and with a resource. Each
-- branch declares its own, and the query both.
theorem Session.query_declares_persons :
    let foaf : Vocabulary := ⟨"foaf", "http://xmlns.com/foaf/0.1/"⟩
    let dc : Vocabulary := ⟨"dc", "http://purl.org/dc/terms/"⟩
    let titled : Description := .someProperty { key := "Title", vocabulary := some dc } .thing
    let catalog := ((({} : Catalog).addProperty "Knows" .page).addProperty "Title" .text).addConcept
      ⟨"Titled", 0⟩ titled
    let s : Session := { compiler := { catalog } }
    let d : Description := .disjunction
      [.conjunction [.concept ⟨"Titled", 0⟩,
        .someProperty { key := "Knows", vocabulary := some foaf } (.inNamespace 0)],
      .value { key := "Type" } .eq (.page (.external foaf "Person"))]
    s.compiler.Standard ∧
      (∀ v w, s.compiler.catalog.Mentions d v → s.compiler.catalog.Mentions d w →
        v.label = w.label → v.uri = w.uri) ∧
      ∃ q s', s.query d [{ key := "Title" }] = (.ok q, s') ∧ ∀ b ∈ q.condition.choices,
        (∀ v ∈ b.references, b.attachments.vocabularies.contains v.label = true) ∧
        (∀ label uri, b.attachments.vocabularies.get? label = some uri →
          s.compiler.catalog.Mentions d ⟨label, uri⟩) ∧
        ∀ v ∈ b.references, b.attachments.vocabularies.get? v.label = some v.uri := by
  intro foaf dc titled catalog s d
  have hc : s.compiler.Standard := Compiler.standard_of_builders rfl
  have hmentions : ∀ v, s.compiler.catalog.Mentions d v → v = foaf ∨ v = dc := by
    rintro v (hv | ⟨page, definition, hsome, hv⟩)
    · have hfoaf : v = foaf := by
        simpa [d, Description.vocabularies, Value.vocabulary?, Value.resource?,
          Resource.vocabulary?] using hv
      exact .inl hfoaf
    · have hdefinition : definition = titled := by
        have hmem := List.mem_singleton.mp (Catalog.mem_of_lookup hsome)
        exact congrArg Prod.snd hmem
      have hdc : v = dc := by simpa [hdefinition, titled, Description.vocabularies] using hv
      exact .inr hdc
  have hapart : ∀ v w, s.compiler.catalog.Mentions d v → s.compiler.catalog.Mentions d w →
      v.label = w.label → v.uri = w.uri := by
    intro v w hv hw
    rcases hmentions v hv with rfl | rfl <;> rcases hmentions w hw with rfl | rfl <;>
      simp [foaf, dc]
  obtain ⟨q, s', hquery, h⟩ := query_declares s hc d [{ key := "Title" }]
  refine ⟨hc, hapart, q, s', hquery, ?_⟩
  intro b hb
  obtain ⟨hdeclared, hmentioned, hown⟩ := h b hb
  exact ⟨hdeclared, hmentioned, hown hapart⟩

end WikiQuery
