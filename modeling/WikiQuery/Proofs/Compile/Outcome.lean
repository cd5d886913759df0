import WikiQuery.Proofs.Compile.Closures
import WikiQuery.Proofs.Compile.Totality

namespace WikiQuery

-- The work goes on: sub-queries, variables and events are added to those there are, no sub-query
-- twice, and only some concepts are reported as circular.
structure Work.Advances (circular : Page → Prop) (w w' : Work) : Prop where
  subqueries : w.subqueries.entries <+: w'.subqueries.entries
  distinct : w.subqueries.entries.Nodup → w'.subqueries.entries.Nodup
  counter : w.counter ≤ w'.counter
  reported : ∃ events, w'.log = events ++ w.log ∧
    ∀ page, .circularConcept page ∈ events → circular page

namespace Work.Advances

variable {circular circular' : Page → Prop} {w w₁ w₂ : Work}

theorem refl (w : Work) : w.Advances circular w where
  subqueries := List.prefix_rfl
  distinct := id
  counter := Nat.le_refl _
  reported := ⟨[], rfl, by simp⟩

theorem trans (h : w.Advances circular w₁) (h₁ : w₁.Advances circular w₂) :
    w.Advances circular w₂ := by
  obtain ⟨events, hlog, hcircular⟩ := h.reported
  obtain ⟨events₁, hlog₁, hcircular₁⟩ := h₁.reported
  refine ⟨h.subqueries.trans h₁.subqueries, h₁.distinct ∘ h.distinct,
    Nat.le_trans h.counter h₁.counter, events₁ ++ events, ?_, ?_⟩
  · rw [hlog₁, hlog, List.append_assoc]
  · intro page hpage
    rcases List.mem_append.mp hpage with hpage | hpage
    · exact hcircular₁ page hpage
    · exact hcircular page hpage

theorem imp (himp : ∀ page, circular page → circular' page) (h : w.Advances circular w₁) :
    w.Advances circular' w₁ := by
  obtain ⟨events, hlog, hcircular⟩ := h.reported
  exact ⟨h.subqueries, h.distinct, h.counter, events, hlog,
    fun page hpage => himp page (hcircular page hpage)⟩

theorem report (w : Work) {e : Event} (he : ∀ page, e = .circularConcept page → circular page) :
    w.Advances circular (w.report e) := by
  refine ⟨List.prefix_rfl, id, Nat.le_refl _, [e], rfl, ?_⟩
  intro page hpage
  exact he page (List.mem_singleton.mp hpage).symm

theorem fresh (w : Work) (stem : String) : w.Advances circular (w.fresh stem).2 :=
  ⟨List.prefix_rfl, id, Nat.le_succ _, [], rfl, by simp⟩

theorem register (w : Work) (q : Subquery) : w.Advances circular (w.register q).2 := by
  obtain ⟨hgrows, -⟩ := w.subqueries.register_cases q
  have hdistinct := fun hnodup => SubqueryTable.nodup_register (t := w.subqueries) hnodup q
  exact ⟨hgrows, hdistinct, Nat.le_refl _, [], rfl, by simp⟩

-- Sub-queries may be forgotten down to those that there were at first.
theorem rollback (h : w.Advances circular w₁) :
    w.Advances circular (w₁.rollback w.subqueries.size) := by
  unfold Work.rollback
  by_cases hsize : w.subqueries.size < w₁.subqueries.size
  · have hreport : w.Advances circular
        (w₁.report (.discardedSubqueries (w₁.subqueries.size - w.subqueries.size))) :=
      h.trans (report w₁ nofun)
    rw [if_pos hsize, SubqueryTable.truncate_grown h.subqueries]
    exact ⟨List.prefix_rfl, id, hreport.counter, hreport.reported⟩
  · rw [if_neg hsize]
    exact h

end Work.Advances

-- The work after a step that may have no result, once the sub-queries of a step without one are
-- taken back.
def Work.settle {α : Type} (start : Work) (result : Except CompileError (Option α)) (w : Work) :
    Work :=
  match result with
  | .ok none => w.rollback start.subqueries.size
  | _ => w

theorem Work.Advances.settle {α : Type} {circular : Page → Prop} {w w₁ : Work}
    (h : w.Advances circular w₁) (result : Except CompileError (Option α)) :
    w.Advances circular (w.settle result w₁) := by
  rcases result with _ | _ | _
  · exact h
  · exact h.rollback
  · exact h

theorem Machine.run_tentatively {α : Type} (keys : SortKeys) (y : Build (Option α)) (w : Work) :
    ((plain keys).tentatively y).run.run w =
      ((y.run.run w).1, w.settle (y.run.run w).1 (y.run.run w).2) := by
  show (y >>= _ : Build (Option α)).run.run w = _
  rw [ExceptT.run_bind, StateT.run_bind]
  rcases y.run.run w with ⟨_ | _ | _, w'⟩ <;> rfl

namespace Build

variable {α β : Type} {E : CompileError → Prop} {c : Compiler}

-- Whatever becomes of a step, the work goes on, no concept is reported as circular, and an error is
-- one of those in `E`.
def Proceeds (E : CompileError → Prop) (x : Build α) : Prop :=
  ∀ w : Work, w.Advances (fun _ => False) (x.run.run w).2 ∧
    ∀ e, (x.run.run w).1 = .error e → E e

namespace Proceeds

theorem pure (a : α) : Proceeds E (pure a) := fun w => ⟨.refl w, nofun⟩

theorem throw {e : CompileError} (he : E e) : Proceeds E (throw e : Build α) := by
  refine fun w => ⟨.refl w, ?_⟩
  rintro _ ⟨⟩
  exact he

theorem bind {x : Build α} {f : α → Build β} (hx : Proceeds E x) (hf : ∀ a, Proceeds E (f a)) :
    Proceeds E (x >>= f) := by
  intro w
  obtain ⟨hwork, herror⟩ := hx w
  rw [ExceptT.run_bind, StateT.run_bind]
  rcases hresult : x.run.run w with ⟨e | a, w'⟩
  · rw [hresult] at hwork herror
    refine ⟨hwork, ?_⟩
    rintro _ ⟨⟩
    exact herror e rfl
  · rw [hresult] at hwork
    obtain ⟨hwork', herror'⟩ := hf a w'
    exact ⟨hwork.trans hwork', herror'⟩

theorem report {e : Event} (he : e.circular? = none) : Proceeds E (report e) := by
  refine fun w => ⟨.report w ?_, nofun⟩
  rintro page rfl
  cases he

theorem fresh (stem : String) : Proceeds E (fresh stem) := fun w => ⟨.fresh w stem, nofun⟩

theorem register (q : Subquery) : Proceeds E (register q) := fun w => ⟨.register w q, nofun⟩

theorem registerClosure (depth : UInt32) (q : Subquery) :
    Proceeds E (Compiler.registerClosure depth q) := by
  unfold Compiler.registerClosure
  by_cases hdepth : depth = 0
  · simp only [hdepth, ite_true]
    exact .pure none
  · simp only [hdepth, ite_false]
    exact .bind (.register q) fun id => .pure (some id)

theorem relate (join : Variable) (p : Property) (info : PropertyInfo)
    (closure : Option SubqueryId) : Proceeds E (c.relate join p info closure) := by
  unfold Compiler.relate
  cases info.datatype.isPage with
  | true =>
    refine .bind (.fresh _) fun v => ?_
    cases p.inverse <;> exact .pure _
  | false => exact .pure _

theorem resolveCategories (categories : List Page) (ids : List Nat) :
    Proceeds E (c.resolveCategories categories ids) := by
  induction categories generalizing ids with
  | nil => exact .pure ids
  | cons category rest ih =>
    rw [Compiler.resolveCategories]
    cases c.catalog.category? category with
    | some id => exact ih _
    | none => exact .bind (.report rfl) fun _ => ih ids

theorem of_deed {x : Build α} (h : Machine.Deed c E x) : Proceeds E x := by
  cases h with
  | report he => exact .report he
  | throw he => exact .throw he
  | registerClosure depth q => exact .registerClosure depth q
  | relate join p info closure => exact .relate join p info closure
  | buildCategories keys join target categories =>
    apply Proceeds.bind (.resolveCategories categories [])
    intro ids
    cases ids.isEmpty with
    | true => exact .pure _
    | false => exact .bind (.registerClosure _ _) fun closure => .pure _
  | buildValue keys join target p comparator value =>
    unfold Compiler.buildValue
    cases c.valueCondition? join p comparator value with
    | some condition => exact .pure _
    | none => exact .bind (.report rfl) fun _ => .pure _

end Proceeds

end Build

-- A call of the compiler, with the work that there is when it is made.
structure Call where
  path : List Page
  description : Description
  join : Variable
  target : Option SortTarget
  work : Work

-- A step that also writes down the calls that it makes.
abbrev Trail := ExceptT CompileError (StateM (Work × List Call))

namespace Trail

variable {α β : Type}

def ofBuild (x : Build α) : Trail α := ExceptT.mk fun (w, calls) =>
  let (result, w) := x.run.run w
  (result, w, calls)

def machine (keys : SortKeys) : Machine Trail where
  work := ofBuild
  sortKeys := pure keys

def call (c : Compiler) (keys : SortKeys) (path : List Page) (d : Description) (join : Variable)
    (target : Option SortTarget) : Trail Condition := ExceptT.mk fun (w, calls) =>
  let (result, w') := (c.compile keys path d join target).run.run w
  (result, w', calls ++ [⟨path, d, join, target, w⟩])

-- A compilation that writes down the calls made right within it.
def compile (c : Compiler) (keys : SortKeys) (path : List Page) (d : Description)
    (join : Variable) (target : Option SortTarget) : Trail Condition :=
  (machine keys).compile c join target d (fun part _ => call c keys path part)
    (fun page definition _ otherwise =>
      if page ∈ path then otherwise else call c keys (page :: path) definition join target)

end Trail

namespace Compiler

-- The calls made right within a call.
def calls (c : Compiler) (keys : SortKeys) (call : Call) : List Call :=
  ((Trail.compile c keys call.path call.description call.join call.target).run.run
    (call.work, [])).2.2

def Calls (c : Compiler) (keys : SortKeys) (call inner : Call) : Prop := inner ∈ c.calls keys call

-- A call leads to a concept within the expansion of that concept.
def Revisits (c : Compiler) (keys : SortKeys) (call : Call) (page : Page) : Prop :=
  ∃ inner, Relation.ReflTransGen (c.Calls keys) call inner ∧ inner.description = .concept page ∧
    page ∈ inner.path

theorem Revisits.head {c : Compiler} {keys : SortKeys} {call inner : Call} {page : Page}
    (hcall : c.Calls keys call inner) (h : c.Revisits keys inner page) :
    c.Revisits keys call page := by
  obtain ⟨last, hlast, hpage⟩ := h
  exact ⟨last, .head hcall hlast, hpage⟩

-- What becomes of a call.
def result (c : Compiler) (keys : SortKeys) (call : Call) :
    Except CompileError Condition × Work :=
  (c.compile keys call.path call.description call.join call.target).run.run call.work

-- The work goes on from a call, a concept is reported as circular only where the call leads to it
-- within its own expansion, and there are no errors but those that can come up.
structure Answers (c : Compiler) (keys : SortKeys) (call : Call) : Prop where
  work : call.work.Advances (c.Revisits keys call) (c.result keys call).2
  error : ∀ e, (c.result keys call).1 = .error e → c.Fails e

end Compiler

namespace Trail

variable {α β : Type} {c : Compiler} {keys : SortKeys} {path : List Page} {d : Description}

-- A step of a call does to some work what it does without a trail, and writes down the calls that it
-- makes. A concept that is on the path already is reported by the call itself, others by calls
-- within.
structure Makes (c : Compiler) (keys : SortKeys) (path : List Page) (d : Description)
    (x : Trail α) (y : Build α) (w : Work) (made : List Call) : Prop where
  run : ∀ calls, x.run.run (w, calls) = ((y.run.run w).1, (y.run.run w).2, calls ++ made)
  opens : ∀ inner ∈ made, c.catalog.Opens (path, d) (inner.path, inner.description)
  work : w.Advances (fun page => (d = .concept page ∧ page ∈ path) ∨
    ∃ inner ∈ made, c.Revisits keys inner page) (y.run.run w).2
  error : ∀ e, (y.run.run w).1 = .error e → c.Fails e

def Follows (c : Compiler) (keys : SortKeys) (path : List Page) (d : Description)
    (x : Trail α) (y : Build α) : Prop :=
  ∀ w, ∃ made, Makes c keys path d x y w made

theorem run_tentatively (x : Trail (Option α)) (w : Work) (calls : List Call) :
    ((machine keys).tentatively x).run.run (w, calls) =
      ((x.run.run (w, calls)).1,
        w.settle (x.run.run (w, calls)).1 (x.run.run (w, calls)).2.1,
        (x.run.run (w, calls)).2.2) := by
  show (x >>= _ : Trail (Option α)).run.run (w, calls) = _
  rw [ExceptT.run_bind, StateT.run_bind]
  rcases x.run.run (w, calls) with ⟨_ | _ | _, w', calls'⟩ <;> rfl

namespace Follows

-- A step that makes no calls.
theorem ofBuild {x : Build α}
    (hwork : ∀ w : Work, w.Advances (fun page => d = .concept page ∧ page ∈ path) (x.run.run w).2)
    (herror : ∀ w e, (x.run.run w).1 = .error e → c.Fails e) :
    Follows c keys path d (ofBuild x) x := by
  intro w
  refine ⟨[], ?_, nofun, (hwork w).imp fun page => .inl, herror w⟩
  intro calls
  rw [List.append_nil]
  rfl

theorem pure (a : α) : Follows c keys path d (pure a) (pure a) := by
  have hpure := Build.Proceeds.pure a (E := c.Fails)
  exact ofBuild (fun w => .refl w) fun w => (hpure w).2

theorem call {path' : List Page} {d' : Description} {join : Variable}
    {target : Option SortTarget} (hopens : c.catalog.Opens (path, d) (path', d'))
    (h : ∀ w, c.Answers keys ⟨path', d', join, target, w⟩) :
    Follows c keys path d (call c keys path' d' join target)
      (c.compile keys path' d' join target) := by
  intro w
  refine ⟨[⟨path', d', join, target, w⟩], fun calls => rfl, ?_, ?_, (h w).error⟩
  · simpa using hopens
  · exact (h w).work.imp fun page hpage => .inr ⟨_, List.mem_singleton_self _, hpage⟩

theorem bind {x : Trail α} {y : Build α} {f : α → Trail β} {g : α → Build β}
    (hx : Follows c keys path d x y) (hf : ∀ a, Follows c keys path d (f a) (g a)) :
    Follows c keys path d (x >>= f) (y >>= g) := by
  intro w
  obtain ⟨made, hmade⟩ := hx w
  rcases hy : y.run.run w with ⟨e | a, w'⟩
  · have hrun : (y >>= g).run.run w = (.error e, w') := by
      rw [ExceptT.run_bind, StateT.run_bind, hy]
      rfl
    refine ⟨made, ?_, hmade.opens, ?_, ?_⟩
    · intro calls
      rw [ExceptT.run_bind, StateT.run_bind, hmade.run, hy, hrun]
      rfl
    · rw [hrun]
      simpa only [hy] using hmade.work
    · rw [hrun]
      rintro _ ⟨⟩
      exact hmade.error e (by rw [hy])
  · obtain ⟨made', hmade'⟩ := hf a w'
    have hrun : (y >>= g).run.run w = (g a).run.run w' := by
      rw [ExceptT.run_bind, StateT.run_bind, hy]
      rfl
    have hwork := hmade.work
    rw [hy] at hwork
    refine ⟨made ++ made', ?_, ?_, ?_, ?_⟩
    · intro calls
      rw [ExceptT.run_bind, StateT.run_bind, hmade.run, hy, hrun, ← List.append_assoc]
      exact hmade'.run (calls ++ made)
    · exact List.forall_mem_append.mpr ⟨hmade.opens, hmade'.opens⟩
    · rw [hrun]
      apply (hwork.imp ?_).trans (hmade'.work.imp ?_)
      · rintro page (hown | ⟨inner, hinner, hpage⟩)
        · exact .inl hown
        · exact .inr ⟨inner, List.mem_append_left made' hinner, hpage⟩
      · rintro page (hown | ⟨inner, hinner, hpage⟩)
        · exact .inl hown
        · exact .inr ⟨inner, List.mem_append_right made hinner, hpage⟩
    · rw [hrun]
      exact hmade'.error

theorem circular {page : Page} (hd : d = .concept page) (hpage : page ∈ path) :
    Follows c keys path d ((machine keys).circular page)
      ((Machine.plain keys).circular page) := by
  have hreport : Follows c keys path d (Trail.ofBuild (Build.report (.circularConcept page)))
      (Build.report (.circularConcept page)) := by
    refine ofBuild (fun w => .report w ?_) nofun
    rintro _ ⟨⟩
    exact ⟨hd, hpage⟩
  exact hreport.bind fun _ => .pure _

theorem tentatively {x : Trail (Option α)} {y : Build (Option α)}
    (hx : Follows c keys path d x y) :
    Follows c keys path d ((machine keys).tentatively x)
      ((Machine.plain keys).tentatively y) := by
  intro w
  obtain ⟨made, hmade⟩ := hx w
  refine ⟨made, ?_, hmade.opens, ?_, ?_⟩
  · intro calls
    rw [run_tentatively, hmade.run, Machine.run_tentatively]
  · rw [Machine.run_tentatively]
    exact hmade.work.settle _
  · rw [Machine.run_tentatively]
    exact hmade.error

end Follows

-- A trail goes along with the compilation.
theorem lockstep : Machine.Lockstep c c.Fails (machine keys) (Machine.plain keys)
    (Follows c keys path d) where
  pure := Follows.pure
  bind := Follows.bind
  work h := by
    have hproceeds := Build.Proceeds.of_deed h
    exact .ofBuild (fun w => (hproceeds w).1.imp fun _ => False.elim) fun w => (hproceeds w).2
  sortKeys := Follows.pure keys
  tentatively := Follows.tentatively

end Trail

namespace Compiler

variable {c : Compiler} {keys : SortKeys} {path : List Page} {d : Description} {join : Variable}
  {target : Option SortTarget}

-- The trail of a call is followed if all is answered that the call opens.
theorem follows_compile
    (h : ∀ inner : Call, c.catalog.Opens (path, d) (inner.path, inner.description) →
      c.Answers keys inner) :
    Trail.Follows c keys path d (Trail.compile c keys path d join target)
      (c.compile keys path d join target) := by
  rw [compile_eq]
  apply Trail.lockstep.compile
  · exact fun _ he => he
  · intro part hpart join target
    exact .call (.part hpart) fun w => h _ (.part hpart)
  · rintro page definition hdefined rfl
    by_cases hentered : page ∈ path
    · simp only [hentered, ite_true]
      exact .circular rfl hentered
    · have hopens := Catalog.Opens.concept (Catalog.enter?_eq_some.mpr ⟨hentered, hdefined⟩)
      simp only [hentered, ite_false]
      exact .call hopens fun w => h _ hopens

-- The calls on the trail of a call are those that it makes, which it opens.
theorem answers_of_opens {call : Call}
    (h : ∀ inner : Call,
      c.catalog.Opens (call.path, call.description) (inner.path, inner.description) →
        c.Answers keys inner) :
    c.Answers keys call ∧ ∀ inner, c.Calls keys call inner →
      c.catalog.Opens (call.path, call.description) (inner.path, inner.description) := by
  have htrail : Trail.Follows c keys call.path call.description
      (Trail.compile c keys call.path call.description call.join call.target)
      (c.compile keys call.path call.description call.join call.target) := follows_compile h
  obtain ⟨made, hmade⟩ := htrail call.work
  have hcalls : ∀ inner, c.Calls keys call inner ↔ inner ∈ made := by
    intro inner
    rw [Calls, calls, hmade.run]
    rfl
  refine ⟨⟨hmade.work.imp ?_, hmade.error⟩, ?_⟩
  · rintro page (⟨hd, hpath⟩ | ⟨inner, hinner, hpage⟩)
    · exact ⟨call, .refl, hd, hpath⟩
    · exact .head ((hcalls inner).mpr hinner) hpage
  · intro inner hinner
    exact hmade.opens inner ((hcalls inner).mp hinner)

theorem answers (c : Compiler) (keys : SortKeys) (call : Call) : c.Answers keys call := by
  induction hsite : (call.path, call.description) using c.catalog.wellFounded_opens.induction
    generalizing call with
  | _ site ih =>
    subst hsite
    exact (answers_of_opens fun inner hopens => ih _ hopens inner rfl).1

theorem Calls.opens {call inner : Call} (h : c.Calls keys call inner) :
    c.catalog.Opens (call.path, call.description) (inner.path, inner.description) :=
  (answers_of_opens fun inner _ => c.answers keys inner).2 inner h

end Compiler

end WikiQuery
