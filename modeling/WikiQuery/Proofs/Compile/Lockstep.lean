import WikiQuery.Compile.Recursion

namespace WikiQuery

-- The concept that an event reports as circular.
def Event.circular? : Event → Option Page
  | .circularConcept page => some page
  | _ => none

-- The errors that a compilation can run into: no builder takes the descriptions of a kind, or the
-- one that does has no rule for them.
inductive Compiler.Fails (c : Compiler) : CompileError → Prop where
  | untaken {kind : Kind} : c.builderFor? kind = none →
    Fails c (.noBuilder kind c.builderNames)
  | refused {kind : Kind} {b : Builder} : c.builderFor? kind = some b → b.recipe = .refuse →
    Fails c (.unexpectedDescription b.name kind)
  | misfit {kind rule : Kind} {b : Builder} : c.builderFor? kind = some b →
    b.recipe = .standard rule → rule ≠ .thing → rule ≠ kind →
    Fails c (.unexpectedDescription rule.name kind)

namespace Machine

open Build

-- What the steps do to the work, other than to report a circular concept and to take sub-queries
-- back. Their errors are some of those in `E`.
inductive Deed (c : Compiler) (E : CompileError → Prop) : {α : Type} → Build α → Prop where
  | report {e : Event} : e.circular? = none → Deed c E (report e)
  | throw {α : Type} {e : CompileError} : E e → Deed c E (throw e : Build α)
  | registerClosure (depth : UInt32) (q : Subquery) :
    Deed c E (Compiler.registerClosure depth q)
  | relate (join : Variable) (p : Property) (info : PropertyInfo) (closure : Option SubqueryId) :
    Deed c E (c.relate join p info closure)
  | buildCategories (keys : SortKeys) (join : Variable) (target : Option SortTarget)
    (categories : List Page) : Deed c E (c.buildCategories keys join target categories)
  | buildValue (keys : SortKeys) (join : Variable) (target : Option SortTarget) (p : Property)
    (comparator : Comparator) (value : Value) :
    Deed c E (c.buildValue keys join target p comparator value)

variable {m₁ m₂ : Type → Type} [Monad m₁] [Monad m₂] {c : Compiler} {E : CompileError → Prop}
  {t₁ : Machine m₁} {t₂ : Machine m₂} {R : {α : Type} → m₁ α → m₂ α → Prop} {α : Type}
  {join : Variable} {target : Option SortTarget}

-- Two machines that do all they do in a relation to each other, one thing after the other.
structure Lockstep (c : Compiler) (E : CompileError → Prop) (t₁ : Machine m₁) (t₂ : Machine m₂)
    (R : {α : Type} → m₁ α → m₂ α → Prop) : Prop where
  pure {α : Type} (a : α) : R (pure a) (pure a)
  bind {α β : Type} {x : m₁ α} {y : m₂ α} {f : α → m₁ β} {g : α → m₂ β} :
    R x y → (∀ a, R (f a) (g a)) → R (x >>= f) (y >>= g)
  work {α : Type} {x : Build α} : Deed c E x → R (t₁.work x) (t₂.work x)
  sortKeys : R t₁.sortKeys t₂.sortKeys
  tentatively {α : Type} {x : m₁ (Option α)} {y : m₂ (Option α)} :
    R x y → R (t₁.tentatively x) (t₂.tentatively y)

namespace Lockstep

theorem refl (c : Compiler) (t : Machine m₁) :
    Lockstep c (fun _ => True) t t (fun x y => x = y) where
  pure _ := rfl
  bind hx hf := by rw [hx, funext hf]
  work _ := rfl
  sortKeys := rfl
  tentatively hx := by rw [hx]

theorem sorted (h : Lockstep c E t₁ t₂ R) (f : SortKeys → α) :
    R (t₁.sortKeys >>= fun keys => Pure.pure (f keys))
      (t₂.sortKeys >>= fun keys => Pure.pure (f keys)) :=
  h.bind h.sortKeys fun _ => h.pure _

theorem conjuncts (h : Lockstep c E t₁ t₂ R) {again₁ : α → m₁ Condition}
    {again₂ : α → m₂ Condition} {parts : List α}
    (hagain : ∀ part ∈ parts, R (again₁ part) (again₂ part)) (merged : Merge) :
    R (t₁.conjuncts again₁ join merged parts) (t₂.conjuncts again₂ join merged parts) := by
  induction parts generalizing merged with
  | nil => exact h.pure _
  | cons part rest ih =>
    obtain ⟨hpart, hrest⟩ := List.forall_mem_cons.mp hagain
    apply h.bind hpart
    intro condition
    cases merged.absorb? join condition with
    | some merged => exact ih hrest merged
    | none =>
      cases merged.conflict? condition with
      | some resources => exact h.bind (h.work (.report rfl)) fun _ => h.pure none
      | none => exact h.pure none

theorem branches (h : Lockstep c E t₁ t₂ R) {again₁ : α → m₁ Condition}
    {again₂ : α → m₂ Condition} {parts : List α}
    (hagain : ∀ part ∈ parts, R (again₁ part) (again₂ part)) :
    R (Machine.branches again₁ parts) (Machine.branches again₂ parts) := by
  induction parts with
  | nil => exact h.pure _
  | cons part rest ih =>
    obtain ⟨hpart, hrest⟩ := List.forall_mem_cons.mp hagain
    apply h.bind hpart
    intro condition
    cases condition.isEverything with
    | true => exact h.pure none
    | false =>
      apply h.bind (ih hrest)
      intro found
      cases condition.isNothing with
      | true => exact h.pure found
      | false => exact h.pure _

theorem concept (h : Lockstep c E t₁ t₂ R) {page : Page}
    {expand₁ : (definition : Description) → c.catalog.concept? page = some definition →
      m₁ Condition → m₁ Condition}
    {expand₂ : (definition : Description) → c.catalog.concept? page = some definition →
      m₂ Condition → m₂ Condition}
    (hexpand : ∀ definition hdefined,
      R (expand₁ definition hdefined (t₁.circular page))
        (expand₂ definition hdefined (t₂.circular page))) :
    R (t₁.concept c page expand₁) (t₂.concept c page expand₂) := by
  unfold Machine.concept
  split
  · exact h.bind (h.work (.report rfl)) fun _ => h.pure _
  · exact hexpand _ _

theorem someProperty (h : Lockstep c E t₁ t₂ R) {p : Property}
    {again₁ : Variable → Option SortTarget → m₁ Condition}
    {again₂ : Variable → Option SortTarget → m₂ Condition}
    (hagain : ∀ join target, R (again₁ join target) (again₂ join target)) :
    R (t₁.someProperty c join target p again₁) (t₂.someProperty c join target p again₂) := by
  unfold Machine.someProperty
  cases c.catalog.property? p with
  | none => exact h.bind (h.work (.report rfl)) fun _ => h.pure _
  | some info =>
    have hrelated : R (t₁.related c join p info again₁) (t₂.related c join p info again₂) := by
      apply h.bind (h.work (.registerClosure _ _))
      intro closure
      apply h.bind (h.work (.relate join p info closure))
      intro related
      exact h.bind (hagain _ _) fun _ => h.pure _
    apply h.bind (h.tentatively hrelated)
    intro found
    cases found with
    | some found => exact h.sorted _
    | none => exact h.pure _

theorem conjunction (h : Lockstep c E t₁ t₂ R) {again₁ : α → Option SortTarget → m₁ Condition}
    {again₂ : α → Option SortTarget → m₂ Condition} {parts : List α}
    (hagain : ∀ part ∈ parts, ∀ target, R (again₁ part target) (again₂ part target)) :
    R (t₁.conjunction c join target again₁ parts) (t₂.conjunction c join target again₂ parts) := by
  rcases parts with _ | ⟨first, _ | ⟨second, rest⟩⟩
  · exact h.sorted _
  · exact hagain first (List.mem_singleton_self first) target
  · refine h.bind (h.tentatively (h.conjuncts (fun part hpart => hagain part hpart none) {})) ?_
    intro merged
    cases merged with
    | some merged => exact h.sorted _
    | none => exact h.pure _

theorem disjunction (h : Lockstep c E t₁ t₂ R) {again₁ : α → m₁ Condition}
    {again₂ : α → m₂ Condition} {parts : List α}
    (hagain : ∀ part ∈ parts, R (again₁ part) (again₂ part)) :
    R (t₁.disjunction c join target again₁ parts) (t₂.disjunction c join target again₂ parts) := by
  refine h.bind (h.tentatively (h.branches hagain)) ?_
  intro found
  cases found with
  | some found => exact h.bind (h.work (.report rfl)) fun _ => h.sorted _
  | none => exact h.sorted _

variable {d : Description}
  {again₁ : (part : Description) → part ∈ d.parts → Variable → Option SortTarget → m₁ Condition}
  {again₂ : (part : Description) → part ∈ d.parts → Variable → Option SortTarget → m₂ Condition}
  {expand₁ : (page : Page) → (definition : Description) →
    c.catalog.concept? page = some definition → m₁ Condition → m₁ Condition}
  {expand₂ : (page : Page) → (definition : Description) →
    c.catalog.concept? page = some definition → m₂ Condition → m₂ Condition}

-- A rule is followed in lockstep if the descriptions within and the definition of the concept are
-- compiled so.
theorem build (h : Lockstep c E t₁ t₂ R)
    (hagain : ∀ part hpart join target,
      R (again₁ part hpart join target) (again₂ part hpart join target))
    (hexpand : ∀ page definition hdefined, d = .concept page →
      R (expand₁ page definition hdefined (t₁.circular page))
        (expand₂ page definition hdefined (t₂.circular page)))
    {rule : Kind}
    (hrule : rule ≠ .thing → rule ≠ d.kind → E (.unexpectedDescription rule.name d.kind)) :
    R (t₁.build c join target d again₁ expand₁ rule)
      (t₂.build c join target d again₂ expand₂ rule) := by
  unfold Machine.build
  by_cases hthing : rule = .thing
  · simp only [hthing, ite_true]
    exact h.sorted _
  by_cases hkind : rule = d.kind
  · subst hkind
    simp only [hthing, ite_false, ne_eq, not_true_eq_false]
    cases d with
    | thing => exact absurd rfl hthing
    | inNamespace number => exact h.sorted _
    | inCategory categories =>
      exact h.bind h.sortKeys fun keys => h.work (.buildCategories keys join target categories)
    | concept page => exact h.concept fun definition hdefined => hexpand page definition hdefined rfl
    | value p comparator value =>
      exact h.bind h.sortKeys fun keys => h.work (.buildValue keys join target p comparator value)
    | someProperty p inner => exact h.someProperty (hagain inner _)
    | conjunction parts => exact h.conjunction fun part _ => hagain part.1 part.2 join
    | disjunction parts => exact h.disjunction fun part _ => hagain part.1 part.2 join target
  · rw [if_neg hthing, if_neg hthing, if_pos hkind, if_pos hkind]
    exact h.work (.throw (hrule hthing hkind))

theorem compile (h : Lockstep c E t₁ t₂ R) (hE : ∀ e, c.Fails e → E e)
    (hagain : ∀ part hpart join target,
      R (again₁ part hpart join target) (again₂ part hpart join target))
    (hexpand : ∀ page definition hdefined, d = .concept page →
      R (expand₁ page definition hdefined (t₁.circular page))
        (expand₂ page definition hdefined (t₂.circular page))) :
    R (t₁.compile c join target d again₁ expand₁) (t₂.compile c join target d again₂ expand₂) := by
  unfold Machine.compile
  cases hb : c.builderFor? d.kind with
  | none => exact h.work (.throw (hE _ (.untaken hb)))
  | some b =>
    refine h.bind (h.work (.report rfl)) fun _ => ?_
    cases hrecipe : b.recipe with
    | constant condition => exact h.pure condition
    | standard rule =>
      exact h.build hagain hexpand fun hthing hkind => hE _ (.misfit hb hrecipe hthing hkind)
    | refuse => exact h.work (.throw (hE _ (.refused hb hrecipe)))

end Lockstep

end Machine

end WikiQuery
