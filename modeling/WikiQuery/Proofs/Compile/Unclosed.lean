import Mathlib.Data.List.Basic
import WikiQuery.Proofs.Compile.Closures
import WikiQuery.Proofs.Compile.Unsorted

namespace WikiQuery

-- A clause less its reference to a closure, in all its groups.
def Clause.unclosed : Clause → Clause
  | .triple s p o _ => .triple s p o none
  | .hasValue v p _ => .hasValue v p none
  | .inCategory v ids _ => .inCategory v ids none
  | .union groups => .union (groups.map fun group => group.map unclosed)
  | .inNamespace v number => .inNamespace v number
  | .sortKey v key => .sortKey v key
  | .filter f => .filter f
decreasing_by exact sizeOf_lt_union ‹_› ‹_›

def Erasure.closures : Erasure where
  clause := Clause.unclosed
  attachments := id
  clause_filter f := by rw [Clause.unclosed]
  clause_union groups := by rw [Clause.unclosed]
  attachments_empty := rfl
  attachments_merge _ _ := rfl
  attachments_safe _ _ := rfl
  attachments_declare _ _ := rfl

-- A condition less its references to closures, in all its branches. There are none in what goes
-- along with it, which stays as it is.
def Condition.unclosed (b : Condition) : Condition := b.erase .closures

-- The settings apart from the depths of closures and from the warnings.
def Settings.shallow (s : Settings) : Settings :=
  { s with categoryDepth := 0, propertyDepth := 0, warnOnIgnored := false }

-- A clause that can refer to a closure does so just if the closure is to have a depth.
def Settings.Marks (s : Settings) : Clause → Prop
  | .triple _ _ _ closure => closure.isSome = true ↔ 0 < s.propertyDepth
  | .hasValue _ _ closure => closure.isSome = true ↔ 0 < s.propertyDepth
  | .inCategory _ _ closure => closure.isSome = true ↔ 0 < s.categoryDepth
  | _ => True

theorem Settings.Marks.closure?_eq_none {s : Settings} {clause : Clause} (h : s.Marks clause)
    (hcategories : s.categoryDepth = 0) (hproperties : s.propertyDepth = 0) :
    clause.closure? = none := by
  cases clause with
  | triple _ _ _ closure => simpa [Settings.Marks, Clause.closure?, hproperties] using h
  | hasValue _ _ closure => simpa [Settings.Marks, Clause.closure?, hproperties] using h
  | inCategory _ _ closure => simpa [Settings.Marks, Clause.closure?, hcategories] using h
  | _ => rfl

namespace Progress

variable {s s' : Progress} {depth : UInt32} {q : Subquery} {closure : Option SubqueryId}

-- How many variables there are, and no closures.
def shallow (s : Progress) : Progress := ⟨s.counter, {}⟩

theorem shallow_rollback (s t : Progress) :
    s.shallow.rollback t.shallow.subqueries.size = (s.rollback t.subqueries.size).shallow := by
  unfold rollback shallow SubqueryTable.truncate
  rw [List.take_nil]

theorem shallow_close (h : s.close depth q = (closure, s')) : s'.shallow = s.shallow := by
  unfold shallow
  rw [counter_close h]

theorem isSome_close (h : s.close depth q = (closure, s')) :
    closure.isSome = true ↔ 0 < depth := by
  unfold close at h
  by_cases hdepth : depth = 0
  · rw [if_pos hdepth] at h
    cases h
    simp [hdepth]
  · rw [if_neg hdepth] at h
    cases h
    have hpos : 0 < depth := UInt32.pos_iff_ne_zero.mpr hdepth
    simpa using hpos

end Progress

namespace Compiler

variable {c : Compiler} {keys : SortKeys} {join v : Variable} {target : Option SortTarget}
  {path : List Page} {d : Description} {s s₁ s' : Progress} {condition : Condition}

-- The compiler that asks for no closures and for no warnings.
def shallow (c : Compiler) : Compiler := { c with settings := c.settings.shallow }

-- Sorts are recorded the same with and without closures.
theorem attachSort_unclosed (datatype : Datatype) (condition : Condition) :
    c.shallow.attachSort keys join target datatype condition.unclosed =
      (c.attachSort keys join target datatype condition).unclosed := by
  have hnothing := condition.isNothing_erase .closures
  have hattachments : (condition.erase .closures).attachments = condition.attachments :=
    condition.attachments_erase .closures
  unfold attachSort Condition.unclosed
  cases target with
  | none => rfl
  | some target =>
    rw [hnothing, hattachments]
    dsimp only
    split_ifs
    · rfl
    · rw [Condition.erase_eq, Condition.erase_eq]
      rfl
    · rw [Condition.erase_eq, Condition.erase_eq]
      rfl

theorem opening_unclosed {p : Property} {info : PropertyInfo} {clause : Clause}
    (h : c.opening join p info s = ((clause, v), s₁)) :
    c.shallow.opening join p info s.shallow = ((clause.unclosed, v), s₁.shallow) := by
  obtain ⟨closure, s₀, hclose, hcases⟩ := opening_cases h
  have hcounter := Progress.counter_close hclose
  unfold opening
  rcases hcases with ⟨hpage, rfl, rfl, rfl⟩ | ⟨hpage, rfl, rfl, rfl⟩
  · have hlink : ∀ v, (link join p v closure).unclosed = link join p v none := by
      intro v
      unfold link
      cases p.inverse <;> simp [Clause.unclosed]
    rw [hlink, hcounter]
    simp only [hpage]
    rfl
  · rw [Clause.unclosed, Progress.shallow_close hclose]
    simp only [hpage]
    rfl

-- To ask for no closures leaves out the references to closures, and all else stays.
theorem closures_commutes (c : Compiler) (keys : SortKeys) :
    Erasure.closures.Commutes c c.shallow keys keys Progress.shallow where
  catalog := rfl
  fields := rfl
  attachSort _ _ _ _ := attachSort_unclosed ..
  inNamespace _ _ := by
    show Clause.unclosed _ = _
    rw [Clause.unclosed]
  inCategory hclose := by
    refine ⟨none, ?_, ?_⟩
    · rw [Progress.shallow_close hclose]
      rfl
    · intro join
      show Clause.unclosed _ = _
      rw [Clause.unclosed]
  opening := opening_unclosed
  rollback := Progress.shallow_rollback

-- What is compiled with closures is, less its references to them, what is compiled without any, and
-- takes the same numbers of variables.
theorem Compiles.unclosed (h : Compiles c keys path d join target s condition s') :
    Compiles c.shallow keys path d join target s.shallow condition.unclosed s'.shallow :=
  h.erase (c.closures_commutes keys) (.inl rfl)

theorem trace_marks : c.Trace fun _ clauses _ => ∀ clause ∈ clauses, c.settings.Marks clause where
  refl s := by simp
  trans h₁ h₂ := List.forall_mem_append.mpr ⟨h₁, h₂⟩
  rollback _ := by simp
  inNamespace s join number := by simp [Settings.Marks]
  inCategory hclose := List.forall_mem_singleton.mpr (Progress.isSome_close hclose)
  opening := by
    intro s s₁ join p info clause v _ hopen
    refine List.forall_mem_singleton.mpr ?_
    obtain ⟨closure, s₀, hclose, ⟨-, -, rfl, -⟩ | ⟨-, -, rfl, -⟩⟩ := opening_cases hopen
    · unfold link
      cases p.inverse <;> exact Progress.isSome_close hclose
    · exact Progress.isSome_close hclose

-- The clauses of what goes along with a condition bind sort keys and refer to nothing.
theorem Compiles.marks (h : Compiles c keys path d join target s condition s') :
    ∀ clause ∈ condition.everyAtom, c.settings.Marks clause := by
  refine List.forall_mem_append.mpr ⟨h.trace trace_marks, ?_⟩
  intro clause hclause
  obtain ⟨w, hw, hclause⟩ := List.mem_flatMap.mp hclause
  obtain ⟨v, rfl⟩ := h.onlyBindsSortKeys w hw
  simp only [Condition.ofPattern, Condition.atoms, Pattern.atoms_cons, Pattern.atoms_nil,
    Clause.atoms, List.append_nil, List.mem_singleton] at hclause
  rw [hclause]
  trivial

-- Where no closure is to have a depth, none is registered.
theorem Compiles.subqueries_eq (h : Compiles c keys path d join target s condition s')
    (hcategories : c.settings.categoryDepth = 0) (hproperties : c.settings.propertyDepth = 0) :
    s'.subqueries = s.subqueries := by
  have hclosure : ∀ clause ∈ condition.everyAtom, clause.closure? = none :=
    fun clause hclause => (h.marks clause hclause).closure?_eq_none hcategories hproperties
  have hsize : s'.subqueries.size ≤ s.subqueries.size := by
    by_contra hlt
    obtain ⟨clause, hclause, hid⟩ :=
      h.exactClosures.used s.subqueries.size (Nat.le_refl _) (by omega)
    rw [hclosure clause hclause] at hid
    cases hid
  have hentries := h.exactClosures.grows.eq_of_length_le hsize
  exact congrArg SubqueryTable.mk hentries.symm

end Compiler

-- A query is, less its references to closures, what is compiled without closures.
theorem Session.query_shallow (s : Session) (hc : s.compiler.Standard) (d : Description)
    (sorts : List RequestedSort) :
    ∃ q s', s.query d sorts = (.ok q, s') ∧
      s.compiler.shallow.Compiles (SortKeys.ofRequests sorts) [] d
        ⟨s.compiler.shallow.settings.result⟩ (SortKeys.rootTarget (SortKeys.ofRequests sorts)) {}
        q.condition.unclosed ⟨s'.work.counter, {}⟩ ∧
      q.sortKeys = SortKeys.ofRequests sorts ∧
      q.result = ⟨s.compiler.shallow.settings.result⟩ ∧
      (∀ clause ∈ q.condition.everyAtom, s.compiler.settings.Marks clause) ∧
      (s.compiler.settings.categoryDepth = 0 → s.compiler.settings.propertyDepth = 0 →
        q.subqueries = {}) := by
  obtain ⟨condition, p, h⟩ := Compiler.exists_compiles s.compiler (SortKeys.ofRequests sorts) [] d
    ⟨s.compiler.settings.result⟩ (SortKeys.rootTarget (SortKeys.ofRequests sorts)) {}
  obtain ⟨s', hquery, -, hcounter⟩ := h.query hc
  refine ⟨_, s', hquery, ?_, rfl, rfl, h.marks, h.subqueries_eq⟩
  rw [hcounter]
  exact h.unclosed

-- Two queries of compilers that differ in the depths of closures and in the warnings only are the
-- same less their references to closures, with all that goes along with them and with the numbers
-- of fresh variables. Each has references just where its closures are to have a depth.
theorem Session.query_unclosed (s s' : Session) (hc : s.compiler.Standard)
    (hsettings : s.compiler.shallow = s'.compiler.shallow) (d : Description)
    (sorts : List RequestedSort) :
    ∃ q q' s₁ s₁', s.query d sorts = (.ok q, s₁) ∧ s'.query d sorts = (.ok q', s₁') ∧
      q.condition.unclosed = q'.condition.unclosed ∧ q.sortKeys = q'.sortKeys ∧
      q.result = q'.result ∧ s₁.work.counter = s₁'.work.counter ∧
      (∀ clause ∈ q.condition.everyAtom, s.compiler.settings.Marks clause) ∧
      (∀ clause ∈ q'.condition.everyAtom, s'.compiler.settings.Marks clause) ∧
      (s.compiler.settings.categoryDepth = 0 → s.compiler.settings.propertyDepth = 0 →
        q.subqueries = {}) := by
  have hc' : s'.compiler.Standard := by
    have hshallow : s.compiler.shallow.Standard := hc
    rw [hsettings] at hshallow
    exact hshallow
  obtain ⟨q, s₁, hquery, hcompiles, hkeys, hresult, hmarks, hempty⟩ := s.query_shallow hc d sorts
  obtain ⟨q', s₁', hquery', hcompiles', hkeys', hresult', hmarks', -⟩ :=
    s'.query_shallow hc' d sorts
  rw [hsettings] at hcompiles hresult
  have hstandard : s'.compiler.shallow.Standard := hc'
  obtain ⟨hcondition, hprogress⟩ := hcompiles.unique hstandard hcompiles'
  have hcounter := congrArg Progress.counter hprogress
  exact ⟨q, q', s₁, s₁', hquery, hquery', hcondition, hkeys.trans hkeys'.symm,
    hresult.trans hresult'.symm, hcounter, hmarks, hmarks', hempty⟩

-- One compiler registers closures of both kinds, finds some of them again and drops those of the
-- first branch. The other one asks for closures of properties only, and warns.
theorem Session.query_unclosed_rivers :
    let catalog := ((({} : Catalog).addProperty "Flows into" .page).addProperty "Length"
      .number).addCategory ⟨"Rivers", 14⟩ 7
    let s : Session := { compiler := { catalog } }
    let s' : Session := { compiler := { catalog, settings :=
      { categoryDepth := 0, propertyDepth := 3, warnOnIgnored := true } } }
    let d : Description := .disjunction
      [.someProperty { key := "Length" } (.inCategory [⟨"Lakes", 14⟩]),
        .conjunction [.inCategory [⟨"Rivers", 14⟩], .value { key := "Length" } .unknown (.text ""),
          .someProperty { key := "Flows into" } (.inCategory [⟨"Rivers", 14⟩])],
        .someProperty { key := "Length" } .thing]
    s.compiler.Standard ∧ s.compiler.shallow = s'.compiler.shallow ∧
      ∃ q q' s₁ s₁', s.query d [{ key := "Flows into" }] = (.ok q, s₁) ∧
        s'.query d [{ key := "Flows into" }] = (.ok q', s₁') ∧
        q.condition.unclosed = q'.condition.unclosed ∧ q.sortKeys = q'.sortKeys ∧
        q.result = q'.result ∧ s₁.work.counter = s₁'.work.counter ∧
        (∀ clause ∈ q.condition.everyAtom, s.compiler.settings.Marks clause) ∧
        (∀ clause ∈ q'.condition.everyAtom, s'.compiler.settings.Marks clause) ∧
        (s.compiler.settings.categoryDepth = 0 → s.compiler.settings.propertyDepth = 0 →
          q.subqueries = {}) := by
  intro _ s s' d
  have hc : s.compiler.Standard := Compiler.standard_of_builders rfl
  have hsettings : s.compiler.shallow = s'.compiler.shallow := rfl
  exact ⟨hc, hsettings, query_unclosed s s' hc hsettings d [{ key := "Flows into" }]⟩

end WikiQuery
