import Mathlib.Data.List.Find
import WikiQuery.Proofs.Compile.Stack

namespace WikiQuery

theorem Kind.mem_all (kind : Kind) : kind ∈ Kind.all := by
  cases kind <;> decide

namespace Compiler

variable {c : Compiler} {kind : Kind}

-- A compiler with further builders after those that it has.
def extend (c : Compiler) (more : List Builder) : Compiler :=
  { c with builders := c.builders ++ more }

-- Builders that take whatever they are registered for.
def Willing (c : Compiler) : Prop := ∀ b ∈ c.builders, b.takes = b.handles

theorem error?_eq_none : c.error? = none ↔
    c.settings.fault? = none ∧ ∀ kind, ∃ b ∈ c.builders, kind ∈ b.handles := by
  have huncovered : c.uncovered? = none ↔ ∀ kind, ∃ b ∈ c.builders, kind ∈ b.handles := by
    simp [uncovered?, Kind.mem_all]
  unfold error?
  cases c.settings.fault? with
  | some fault => simp
  | none => simp [huncovered]

theorem error?_extend (hc : c.error? = none) (more : List Builder) :
    (c.extend more).error? = none := by
  obtain ⟨hsettings, hcovered⟩ := error?_eq_none.mp hc
  refine error?_eq_none.mpr ⟨hsettings, ?_⟩
  intro kind
  obtain ⟨b, hb, hkind⟩ := hcovered kind
  exact ⟨b, List.mem_append_left more hb, hkind⟩

-- In a complete registry some builder takes the descriptions of each kind, which is the first one
-- registered for it.
theorem builderFor?_eq_find? (hwilling : c.Willing) (kind : Kind) :
    c.builderFor? kind = c.builders.find? fun b => kind ∈ b.handles := by
  apply List.find?_congr
  intro b hb
  rw [hwilling b hb]

theorem exists_builderFor? (hc : c.error? = none) (hwilling : c.Willing) (kind : Kind) :
    ∃ b, c.builderFor? kind = some b := by
  obtain ⟨-, hcovered⟩ := error?_eq_none.mp hc
  obtain ⟨b, hb, hkind⟩ := hcovered kind
  rw [← hwilling b hb] at hkind
  rw [← Option.isSome_iff_exists, builderFor?, List.find?_isSome]
  exact ⟨b, hb, by simpa using hkind⟩

theorem builderFor?_extend (hc : c.error? = none) (hwilling : c.Willing) (more : List Builder)
    (kind : Kind) : (c.extend more).builderFor? kind = c.builderFor? kind := by
  obtain ⟨b, hb⟩ := exists_builderFor? hc hwilling kind
  unfold builderFor? at hb ⊢
  show (c.builders ++ more).find? _ = _
  rw [List.find?_append, hb]
  rfl

theorem resolveCategories_extend (more : List Builder) (categories : List Page) (ids : List Nat) :
    (c.extend more).resolveCategories categories ids = c.resolveCategories categories ids := by
  induction categories generalizing ids with
  | nil => rfl
  | cons category rest ih =>
    rw [resolveCategories, resolveCategories]
    simp only [ih]
    rfl

theorem buildCategories_extend (more : List Builder) (keys : SortKeys) (join : Variable)
    (target : Option SortTarget) (categories : List Page) :
    (c.extend more).buildCategories keys join target categories =
      c.buildCategories keys join target categories := by
  unfold buildCategories
  rw [resolveCategories_extend]
  rfl

-- The rules do not ask for builders.
theorem buildBy_extend (c : Compiler) (more : List Builder) (keys : SortKeys) (again : Recursion)
    (path : List Page) (rule : Kind) (d : Description) (join : Variable)
    (target : Option SortTarget) :
    (c.extend more).buildBy keys again path rule d join target =
      c.buildBy keys again path rule d join target := by
  cases d with
  | inCategory categories =>
    unfold buildBy Machine.build
    simp only [buildCategories_extend]
    rfl
  | conjunction parts => rcases parts with _ | ⟨first, _ | ⟨second, rest⟩⟩ <;> rfl
  | _ => rfl

theorem compileBy_extend (hc : c.error? = none) (hwilling : c.Willing) (more : List Builder)
    (keys : SortKeys) (again : Recursion) (path : List Page) (d : Description) (join : Variable)
    (target : Option SortTarget) :
    (c.extend more).compileBy keys again path d join target =
      c.compileBy keys again path d join target := by
  obtain ⟨b, hb⟩ := exists_builderFor? hc hwilling d.kind
  have hrule := fun rule => c.buildBy_extend more keys again path rule d join target
  unfold buildBy at hrule
  unfold compileBy Machine.compile
  simp only [builderFor?_extend hc hwilling, hb, hrule]

-- Builders after a complete registry are never asked.
theorem compile_extend (hc : c.error? = none) (hwilling : c.Willing) (more : List Builder)
    (keys : SortKeys) (path : List Page) (d : Description) :
    (c.extend more).compile keys path d = c.compile keys path d := by
  apply eq_compile (f := (c.extend more).compile keys) (path, d)
  intro inner _ join target
  rw [compile_eq, compileBy_extend hc hwilling]

-- No error can come up where the first builder for each kind follows the rule for that kind.
theorem not_fails (h : ∀ kind, ∃ b, c.builderFor? kind = some b ∧ b.recipe = .standard kind)
    (e : CompileError) : ¬ c.Fails e := by
  have hrule : ∀ {kind b}, c.builderFor? kind = some b → b.recipe = .standard kind := by
    intro kind b hb
    obtain ⟨first, hfirst, hrecipe⟩ := h kind
    rw [hfirst] at hb
    cases hb
    exact hrecipe
  intro he
  cases he with
  | @untaken kind hnone =>
    obtain ⟨b, hb, -⟩ := h kind
    rw [hnone] at hb
    cases hb
  | refused hb hrefuse =>
    rw [hrule hb] at hrefuse
    cases hrefuse
  | misfit hb hother _ hne =>
    rw [hrule hb] at hother
    cases hother
    exact hne rfl

theorem exists_result (h : ∀ e, ¬ c.Fails e) (keys : SortKeys) (path : List Page)
    (d : Description) (join : Variable) (target : Option SortTarget) (w : Work) :
    ∃ condition w', (c.compile keys path d join target).run.run w = (.ok condition, w') := by
  have hfails := (c.answers keys ⟨path, d, join, target, w⟩).error
  rcases hrun : (c.compile keys path d join target).run.run w with ⟨e | condition, w'⟩
  · exact absurd (hfails e (congrArg Prod.fst hrun)) (h e)
  · exact ⟨condition, w', rfl⟩

-- Where builders take all they are registered for and there is one for each kind, there always is
-- one to build a condition, and none that is registered after them is ever asked. Where the first
-- builder for each kind follows the rule for that kind, all descriptions can be compiled.
theorem registry_complete (c : Compiler) (hc : c.error? = none) (hwilling : c.Willing) :
    (∀ keys path d join target w kind tried,
      ((c.compile keys path d join target).run.run w).1 ≠ .error (.noBuilder kind tried)) ∧
    (∀ more, (c.extend more).error? = none ∧
      (∀ keys path d, (c.extend more).compile keys path d = c.compile keys path d) ∧
      ∀ f g, c.Drives f → (c.extend more).Drives g → g = f) ∧
    ((∀ kind, ∃ b, c.builders.find? (fun b => kind ∈ b.handles) = some b ∧
        b.recipe = .standard kind) →
      ∀ keys path d join target w, ∃ condition w',
        (c.compile keys path d join target).run.run w = (.ok condition, w')) := by
  refine ⟨?_, ?_, ?_⟩
  · intro keys path d join target w kind tried herror
    cases (c.answers keys ⟨path, d, join, target, w⟩).error _ herror with
    | untaken hnone =>
      obtain ⟨b, hb⟩ := exists_builderFor? hc hwilling kind
      rw [hnone] at hb
      cases hb
  · intro more
    refine ⟨error?_extend hc more, compile_extend hc hwilling more, ?_⟩
    intro f g hf hg
    funext d join target driver
    have hcompile := compile_extend hc hwilling more driver.sortKeys driver.expanding d
    have hrun := hg.run driver d join target
    rw [hcompile] at hrun
    exact hrun.trans (hf.run driver d join target).symm
  · intro hstandard
    apply exists_result
    apply not_fails
    intro kind
    rw [builderFor?_eq_find? hwilling]
    exact hstandard kind

-- One builder follows the rule for concepts under another name. Builders that take everything or
-- nothing, or refuse what they take, come too late.
theorem registry_complete_late :
    let c : Compiler :=
      { builders := { name := "named", handles := [.concept], recipe := .standard .concept } ::
          Builder.standards }
    let more : List Builder :=
      [{ name := "all", handles := Kind.all, recipe := .standard .thing },
        { name := "none", handles := [.concept], takes := Kind.all, recipe := .constant .nothing },
        { name := "closed", handles := [], takes := [.thing], recipe := .refuse }]
    c.error? = none ∧ c.Willing ∧
      (∀ kind, ∃ b, c.builders.find? (fun b => kind ∈ b.handles) = some b ∧
        b.recipe = .standard kind) ∧
      (c.extend more).error? = none ∧ (c.extend more).drive = c.drive ∧
      ∀ keys path d join target w, ∃ condition w',
        ((c.extend more).compile keys path d join target).run.run w = (.ok condition, w') := by
  intro c more
  have hc : c.error? = none := by decide +kernel
  have hwilling : c.Willing := by
    unfold Willing
    decide
  have hstandard : ∀ kind, ∃ b, c.builders.find? (fun b => kind ∈ b.handles) = some b ∧
      b.recipe = .standard kind := by
    intro kind
    cases kind <;> exact ⟨_, rfl, rfl⟩
  obtain ⟨-, hmore, hresult⟩ := registry_complete c hc hwilling
  obtain ⟨herror, hcompile, hdrives⟩ := hmore more
  refine ⟨hc, hwilling, hstandard, herror, hdrives _ _ c.drives_drive (drives_drive _), ?_⟩
  intro keys path d join target w
  rw [hcompile]
  exact hresult hstandard keys path d join target w

end Compiler

end WikiQuery
