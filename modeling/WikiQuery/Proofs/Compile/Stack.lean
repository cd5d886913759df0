import WikiQuery.Compile.Session
import WikiQuery.Proofs.Compile.Outcome

namespace WikiQuery

-- A compiler at work that keeps the concepts it is expanding on a stack, the innermost first.
structure Driver where
  sortKeys : SortKeys := ∅
  expanding : List Page := []
  work : Work := {}

namespace Driver

-- Puts a concept on the stack, unless it is there.
def enter (driver : Driver) (page : Page) : Bool × Driver :=
  if page ∈ driver.expanding then (false, driver)
  else (true, { driver with expanding := page :: driver.expanding })

theorem enter_of_mem {driver : Driver} {page : Page} (h : page ∈ driver.expanding) :
    driver.enter page = (false, driver) := by
  simp [enter, h]

theorem enter_of_notMem {driver : Driver} {page : Page} (h : page ∉ driver.expanding) :
    driver.enter page = (true, { driver with expanding := page :: driver.expanding }) := by
  simp [enter, h]

-- Takes the innermost concept from the stack.
def leave (driver : Driver) : Driver := { driver with expanding := driver.expanding.tail }

end Driver

-- A step that may change all of it. What has been done before an error stays done.
abbrev Drive := ExceptT CompileError (StateM Driver)

namespace Drive

variable {α β : Type} {keys : SortKeys} {path : List Page}

def sortKeys : Drive SortKeys := return (← get).sortKeys

-- A step that is about the work only.
def ofBuild (x : Build α) : Drive α := ExceptT.mk fun driver =>
  let (result, work) := x.run.run driver.work
  (result, { driver with work })

def enter (page : Page) : Drive Bool := modifyGet (·.enter page)

def leave : Drive Unit := modify (·.leave)

-- Makes an error of a step its result.
def attempt (x : Drive α) : Drive (Except CompileError α) := ExceptT.mk fun driver =>
  let (result, driver) := x.run.run driver
  (.ok result, driver)

-- Does a step within the expansion of a concept and leaves the concept whatever becomes of it. If
-- the concept is being expanded already, another step is done.
def within (page : Page) (x otherwise : Drive α) : Drive α := do
  if ← enter page then
    let result ← attempt x
    leave
    MonadExcept.ofExcept result
  else otherwise

theorem run_within (page : Page) (x otherwise : Drive α) (driver : Driver) :
    (within page x otherwise).run.run driver =
      if (driver.enter page).1 then
        ((x.run.run (driver.enter page).2).1, (x.run.run (driver.enter page).2).2.leave)
      else otherwise.run.run (driver.enter page).2 := by
  have hrun : (within page x otherwise).run.run driver =
      ((if (driver.enter page).1 then do
        let result ← attempt x
        leave
        MonadExcept.ofExcept result
      else otherwise : Drive α).run.run (driver.enter page).2) := rfl
  rw [hrun]
  cases (driver.enter page).1 with
  | false => rfl
  | true =>
    simp only [ite_true]
    have hattempt : (attempt x).run.run (driver.enter page).2 =
      (.ok (x.run.run (driver.enter page).2).1, (x.run.run (driver.enter page).2).2) := rfl
    rw [ExceptT.run_bind, StateT.run_bind, hattempt]
    cases (x.run.run (driver.enter page).2).1 <;> rfl

def machine : Machine Drive where
  work := ofBuild
  sortKeys := sortKeys

-- On a stack, a step does to the work what a step without a stack does, with the same result or
-- error, and leaves all else as it was.
def Does (keys : SortKeys) (path : List Page) (x : Drive α) (y : Build α) : Prop :=
  ∀ work, x.run.run ⟨keys, path, work⟩ =
    ((y.run.run work).1, ⟨keys, path, (y.run.run work).2⟩)

namespace Does

theorem pure (a : α) : Does keys path (pure a) (pure a) := fun _ => rfl

theorem bind {x : Drive α} {y : Build α} {f : α → Drive β} {g : α → Build β}
    (hx : Does keys path x y) (hf : ∀ a, Does keys path (f a) (g a)) :
    Does keys path (x >>= f) (y >>= g) := by
  intro work
  rw [ExceptT.run_bind, StateT.run_bind, ExceptT.run_bind, StateT.run_bind, hx work]
  rcases y.run.run work with ⟨e | a, work'⟩
  · rfl
  · exact hf a work'

-- Within a concept the stack has one concept more, which is taken off whatever becomes of the step.
theorem within {page : Page} {x otherwise : Drive α} {y : Build α} (hpage : page ∉ path)
    (hx : Does keys (page :: path) x y) : Does keys path (within page x otherwise) y := by
  intro work
  rw [run_within, Driver.enter_of_notMem hpage]
  simp only [ite_true]
  rw [hx work]
  rfl

theorem within_of_mem {page : Page} {x otherwise : Drive α} {y : Build α} (hpage : page ∈ path)
    (hy : Does keys path otherwise y) : Does keys path (Drive.within page x otherwise) y := by
  intro work
  rw [run_within, Driver.enter_of_mem hpage]
  exact hy work

theorem tentatively {x : Drive (Option α)} {y : Build (Option α)} (hx : Does keys path x y) :
    Does keys path (machine.tentatively x) ((Machine.plain keys).tentatively y) := by
  have hrollback : ∀ mark,
      Does keys path (ofBuild (Build.rollback mark)) (Build.rollback mark) := fun _ _ => rfl
  apply bind (fun _ => rfl)
  intro mark
  apply bind hx
  intro found
  cases found with
  | some a => exact pure (some a)
  | none => exact bind (hrollback mark) fun _ => pure none

end Does

-- The steps on a stack go along with those on a path.
theorem lockstep (c : Compiler) : Machine.Lockstep c (fun _ => True) machine (Machine.plain keys)
    (Does keys path) where
  pure := Does.pure
  bind := Does.bind
  work _ := fun _ => rfl
  sortKeys := fun _ => rfl
  tentatively := Does.tentatively

end Drive

-- A way to compile descriptions on a stack of concepts.
abbrev StackRecursion := Description → Variable → Option SortTarget → Drive Condition

namespace Compiler

open Drive

-- The steps of a compilation on a stack, with a way to compile the descriptions within.
def compileOn (c : Compiler) (again : StackRecursion) (d : Description) (join : Variable)
    (target : Option SortTarget) : Drive Condition :=
  Drive.machine.compile c join target d (fun part _ => again part)
    (fun page definition _ otherwise => within page (again definition join target) otherwise)

variable {c : Compiler} {keys : SortKeys} {path : List Page} {join : Variable}
  {target : Option SortTarget}

-- A step does on a stack what it does on a path if all does that the description opens.
theorem compileOn_does {f : StackRecursion} {g : Recursion} {d : Description}
    (h : ∀ inner, c.catalog.Opens (path, d) inner →
      ∀ join target, Does keys inner.1 (f inner.2 join target) (g inner.1 inner.2 join target)) :
    Does keys path (c.compileOn f d join target) (c.compileBy keys g path d join target) := by
  apply (Drive.lockstep c).compile
  · exact fun _ _ => trivial
  · intro part hpart join target
    exact h _ (.part hpart) join target
  · rintro page definition hdefined rfl
    by_cases hentered : page ∈ path
    · simp only [hentered, ite_true]
      exact .within_of_mem hentered fun _ => rfl
    · have hopens := Catalog.Opens.concept (Catalog.enter?_eq_some.mpr ⟨hentered, hdefined⟩)
      simp only [hentered, ite_false]
      exact .within hentered (h _ hopens join target)

-- A way to compile descriptions that does what the steps on a stack say.
def Drives (c : Compiler) (f : StackRecursion) : Prop :=
  ∀ d join target, f d join target = c.compileOn f d join target

-- Whatever works on a stack step by step compiles descriptions as if there was no stack.
theorem Drives.does {f : StackRecursion} (hf : c.Drives f) (call : List Page × Description) :
    ∀ join target,
      Does keys call.1 (f call.2 join target) (c.compile keys call.1 call.2 join target) := by
  induction call using c.catalog.wellFounded_opens.induction with
  | _ call ih =>
    intro join target
    rw [hf, compile_eq]
    exact compileOn_does ih

-- The compilation on a stack, as one on the path that the stack holds.
def drive (c : Compiler) : StackRecursion := fun d join target => ExceptT.mk fun driver =>
  let (result, work) :=
    (c.compile driver.sortKeys driver.expanding d join target).run.run driver.work
  (result, { driver with work })

theorem drive_does (c : Compiler) (d : Description) :
    Does keys path (c.drive d join target) (c.compile keys path d join target) :=
  fun _ => rfl

theorem drives_drive (c : Compiler) : c.Drives c.drive := by
  intro d join target
  funext driver
  have hstep : Does driver.sortKeys driver.expanding (c.compileOn c.drive d join target)
      (c.compileBy driver.sortKeys (c.compile driver.sortKeys) driver.expanding d join target) :=
    compileOn_does fun inner _ join target => c.drive_does inner.2
  rw [← compile_eq] at hstep
  exact (hstep driver.work).symm

end Compiler

namespace Compiler

variable {c : Compiler} {keys : SortKeys} {call inner : Call} {page : Page}

-- A call leads to a concept, and the expansion of the concept leads to it again.
def Recurs (c : Compiler) (keys : SortKeys) (call : Call) (page : Page) : Prop :=
  ∃ outer inner, Relation.ReflTransGen (c.Calls keys) call outer ∧
    outer.description = .concept page ∧ Relation.TransGen (c.Calls keys) outer inner ∧
    inner.description = .concept page

-- A concept on the path of a call was there before or has been entered since.
theorem exists_entered (h : Relation.ReflTransGen (c.Calls keys) call inner)
    (hpage : page ∈ inner.path) :
    page ∈ call.path ∨ ∃ outer, Relation.ReflTransGen (c.Calls keys) call outer ∧
      outer.description = .concept page ∧ Relation.TransGen (c.Calls keys) outer inner := by
  induction h with
  | refl => exact .inl hpage
  | @tail middle inner hfirst hlast ih =>
    rcases hlast.opens.mem_path hpage with hmiddle | hmiddle
    · rcases ih hmiddle with hcall | ⟨outer, houter, hconcept, hinner⟩
      · exact .inl hcall
      · exact .inr ⟨outer, houter, hconcept, hinner.tail hlast⟩
    · exact .inr ⟨middle, hfirst, hmiddle, .single hlast⟩

theorem Revisits.recurs (h : c.Revisits keys call page) :
    page ∈ call.path ∨ c.Recurs keys call page := by
  obtain ⟨inner, hreach, hconcept, hpage⟩ := h
  rcases exists_entered hreach hpage with hcall | ⟨outer, houter, hentered, hinner⟩
  · exact .inl hcall
  · exact .inr ⟨outer, inner, houter, hentered, hinner, hconcept⟩

end Compiler

-- Compiles descriptions one after the other, whatever becomes of each.
def Driver.after (f : StackRecursion) (driver : Driver)
    (calls : List (Description × Variable × Option SortTarget)) : Driver :=
  calls.foldl (fun driver call => ((f call.1 call.2.1 call.2.2).run.run driver).2) driver

-- The call for a description on the stack.
def Driver.call (driver : Driver) (d : Description) (join : Variable)
    (target : Option SortTarget) : Call :=
  ⟨driver.expanding, d, join, target, driver.work⟩

namespace Compiler

variable {c : Compiler} {f : StackRecursion}

theorem Drives.run (hf : c.Drives f) (driver : Driver) (d : Description) (join : Variable)
    (target : Option SortTarget) :
    (f d join target).run.run driver =
      (((c.compile driver.sortKeys driver.expanding d join target).run.run driver.work).1,
        { driver with work :=
          ((c.compile driver.sortKeys driver.expanding d join target).run.run driver.work).2 }) :=
  hf.does (driver.expanding, d) join target driver.work

theorem Drives.kept_after (hf : c.Drives f) (driver : Driver)
    (calls : List (Description × Variable × Option SortTarget)) :
    (driver.after f calls).expanding = driver.expanding ∧
      (driver.after f calls).sortKeys = driver.sortKeys := by
  induction calls generalizing driver with
  | nil => exact ⟨rfl, rfl⟩
  | cons call rest ih =>
    have hfirst := hf.run driver call.1 call.2.1 call.2.2
    rw [Driver.after, List.foldl_cons, ← Driver.after, hfirst]
    exact ih _

theorem Drives.advances (hf : c.Drives f) (driver : Driver) (d : Description) (join : Variable)
    (target : Option SortTarget) :
    driver.work.Advances (c.Revisits driver.sortKeys (driver.call d join target))
      ((f d join target).run.run driver).2.work := by
  rw [hf.run]
  exact (c.answers driver.sortKeys (driver.call d join target)).work

-- A compilation leaves the stack and the sort keys as they were and goes on with the work, whether
-- it succeeds or fails. So descriptions can be compiled one after the other with no reset: a
-- concept is reported as circular only if its expansion within the description leads to it. This is
-- how a session compiles, on a stack that is empty.
theorem drives_reusable (c : Compiler) (f : StackRecursion) (hf : c.Drives f) (driver : Driver) :
    (∀ d join target, ∃ result driver', (f d join target).run.run driver = (result, driver') ∧
      driver'.expanding = driver.expanding ∧ driver'.sortKeys = driver.sortKeys ∧
      driver.work.subqueries.entries <+: driver'.work.subqueries.entries ∧
      driver.work.counter ≤ driver'.work.counter) ∧
    (∀ calls d join target, ∃ events,
      (driver.after f (calls ++ [(d, join, target)])).work.log =
        events ++ (driver.after f calls).work.log ∧
      ∀ page, .circularConcept page ∈ events →
        page ∈ driver.expanding ∨
          c.Recurs driver.sortKeys ((driver.after f calls).call d join target) page) ∧
    ∀ keys work d join target,
      let (result, s) := Session.compile ⟨c, keys, work⟩ d join target
      (f d join target).run.run ⟨keys, [], work⟩ = (result, ⟨s.sortKeys, [], s.work⟩) := by
  refine ⟨?_, ?_, ?_⟩
  · intro d join target
    have hwork := hf.advances driver d join target
    rw [hf.run] at hwork
    exact ⟨_, _, hf.run driver d join target, rfl, rfl, hwork.subqueries, hwork.counter⟩
  · intro calls d join target
    have hlast : driver.after f (calls ++ [(d, join, target)]) =
        ((f d join target).run.run (driver.after f calls)).2 := by
      rw [Driver.after, List.foldl_append]
      rfl
    obtain ⟨events, hlog, hcircular⟩ := (hf.advances (driver.after f calls) d join target).reported
    obtain ⟨hexpanding, hkeys⟩ := hf.kept_after driver calls
    rw [hlast, ← hexpanding, ← hkeys]
    exact ⟨events, hlog, fun page hpage => (hcircular page hpage).recurs⟩
  · intro keys work d join target
    exact hf.run ⟨keys, [], work⟩ d join target

-- A concept is defined by itself, and a builder refuses namespaces: what is compiled first fails
-- within the expansion of the concept, which can be entered again all the same.
theorem drives_reusable_islands :
    let island : Page := ⟨"Island", 108⟩
    let d : Description := .concept island
    let c : Compiler :=
      { catalog := ({} : Catalog).addConcept island (.conjunction [.inNamespace 0, .concept island])
        builders := { name := "closed", handles := [.inNamespace], recipe := .refuse } ::
          Builder.standards }
    let call : Description × Variable × Option SortTarget := (d, ⟨"x"⟩, none)
    c.error? = none ∧ c.Drives c.drive ∧
      (∃ driver', (c.drive d ⟨"x"⟩ none).run.run {} =
          (.error (.unexpectedDescription "closed" .inNamespace), driver') ∧
        driver'.expanding = [] ∧ driver'.sortKeys = ∅) ∧
      ∃ events, (Driver.after c.drive {} [call, call]).work.log =
          events ++ (Driver.after c.drive {} [call]).work.log ∧
        ∀ page, .circularConcept page ∈ events →
          c.Recurs ∅ ((Driver.after c.drive {} [call]).call d ⟨"x"⟩ none) page := by
  intro island d c call
  have hinner : c.compile ∅ [island] (.inNamespace 0) ⟨"x"⟩ none = (do
      Build.report (.building "closed" .inNamespace ⟨"x"⟩)
      throw (.unexpectedDescription "closed" .inNamespace)) := by
    rw [compile_eq]
    rfl
  have hrefused : ((c.drive d ⟨"x"⟩ none).run.run {}).1 =
      .error (.unexpectedDescription "closed" .inNamespace) := by
    show ((c.compile ∅ [] d ⟨"x"⟩ none).run.run {}).1 = _
    rw [compile_eq]
    show ((c.compile ∅ [island] (.conjunction [.inNamespace 0, d]) ⟨"x"⟩ none).run.run _).1 = _
    rw [compile_eq]
    show ((((c.compile ∅ [island] (.inNamespace 0) ⟨"x"⟩ none >>= _) >>= _) >>= _ :
      Build Condition).run.run _).1 = _
    rw [hinner]
    rfl
  obtain ⟨hone, hmany, -⟩ := drives_reusable c c.drive c.drives_drive {}
  obtain ⟨result, driver', hrun, hexpanding, hkeys, -, -⟩ := hone d ⟨"x"⟩ none
  obtain ⟨events, hlog, hcircular⟩ := hmany [call] d ⟨"x"⟩ none
  rw [hrun] at hrefused
  refine ⟨by decide +kernel, c.drives_drive, ⟨driver', ?_, hexpanding, hkeys⟩, events, hlog, ?_⟩
  · rw [hrun, ← hrefused]
  · intro page hpage
    exact (hcircular page hpage).resolve_left List.not_mem_nil

end Compiler

end WikiQuery
