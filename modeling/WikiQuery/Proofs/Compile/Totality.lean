import Mathlib.Data.Finset.Card
import Mathlib.Data.Finset.SDiff
import Mathlib.Logic.Relation
import WikiQuery.Proofs.Compile.Lockstep
import WikiQuery.Proofs.Compile.Rules

namespace WikiQuery

namespace Description

-- The number of descriptions that a description is made of.
def size : Description → Nat
  | .someProperty _ inner => size inner + 1
  | .conjunction parts => (parts.map fun part => size part).foldr (· + ·) 1
  | .disjunction parts => (parts.map fun part => size part).foldr (· + ·) 1
  | _ => 1

theorem size_lt_of_mem {parts : List Description} {part : Description} (h : part ∈ parts) :
    part.size < (parts.map size).foldr (· + ·) 1 := by
  have hpos : ∀ parts : List Description, 0 < (parts.map size).foldr (· + ·) 1 := by
    intro parts
    induction parts with
    | nil => simp
    | cons first rest ih =>
      rw [List.map_cons, List.foldr_cons]
      omega
  induction parts with
  | nil => cases h
  | cons first rest ih =>
    have hrest := hpos rest
    rw [List.map_cons, List.foldr_cons]
    rcases List.mem_cons.mp h with rfl | h
    · omega
    · have := ih h
      omega

end Description

namespace Catalog

variable {c : Catalog}

-- The concepts that have a definition.
def defined (c : Catalog) : Finset Page := (c.concepts.map Prod.fst).toFinset

theorem mem_defined {page : Page} :
    page ∈ c.defined ↔ ∃ definition, c.concept? page = some definition := by
  rw [← Option.isSome_iff_exists, concept?, List.lookup_isSome_iff, defined, List.mem_toFinset,
    List.mem_map]
  constructor
  · rintro ⟨entry, hentry, rfl⟩
    exact ⟨entry, hentry, by simp⟩
  · rintro ⟨entry, hentry, heq⟩
    exact ⟨entry, hentry, (beq_iff_eq.mp heq).symm⟩

-- How many concepts have a definition and are not on a path.
def unentered (c : Catalog) (path : List Page) : Nat := (c.defined \ path.toFinset).card

theorem unentered_lt {path : List Page} {page : Page} {definition : Description}
    (h : c.enter? path page = some definition) : c.unentered (page :: path) < c.unentered path := by
  obtain ⟨hpath, hdefined⟩ := enter?_eq_some.mp h
  have hmem : page ∈ c.defined := mem_defined.mpr ⟨definition, hdefined⟩
  apply Finset.card_lt_card
  rw [Finset.ssubset_iff_of_subset (Finset.sdiff_subset_sdiff (Finset.Subset.refl _) (by simp))]
  exact ⟨page, by simp [hmem, hpath], by simp⟩

-- A path of concepts that are expanded within one another: all of them are defined, and none is
-- expanded within itself.
structure Expanding (c : Catalog) (path : List Page) : Prop where
  nodup : path.Nodup
  defined : ∀ page ∈ path, page ∈ c.defined

-- What is compiled right within a description, each on its path.
inductive Opens (c : Catalog) : List Page × Description → List Page × Description → Prop where
  | concept {path : List Page} {page : Page} {definition : Description} :
    c.enter? path page = some definition →
    Opens c (path, .concept page) (page :: path, definition)
  | someProperty {path : List Page} (p : Property) (inner : Description) :
    Opens c (path, .someProperty p inner) (path, inner)
  | conjunct {path : List Page} {parts : List Description} {part : Description} :
    part ∈ parts → Opens c (path, .conjunction parts) (path, part)
  | disjunct {path : List Page} {parts : List Description} {part : Description} :
    part ∈ parts → Opens c (path, .disjunction parts) (path, part)

theorem Opens.part {path : List Page} {d part : Description} (h : part ∈ d.parts) :
    c.Opens (path, d) (path, part) := by
  cases d with
  | someProperty p inner =>
    rw [List.mem_singleton.mp h]
    exact .someProperty p inner
  | conjunction parts => exact .conjunct h
  | disjunction parts => exact .disjunct h
  | _ => cases h

-- The path of a call grows by the concept that the call stands for.
theorem Opens.mem_path {call inner : List Page × Description} {page : Page}
    (h : c.Opens call inner) (hpage : page ∈ inner.1) : page ∈ call.1 ∨ call.2 = .concept page := by
  cases h with
  | concept henter =>
    rcases List.mem_cons.mp hpage with rfl | hmem
    · exact .inr rfl
    · exact .inl hmem
  | someProperty p inner => exact .inl hpage
  | conjunct _ => exact .inl hpage
  | disjunct _ => exact .inl hpage

-- First counts how many concepts are left to enter, then the size of the description.
def rank (c : Catalog) (call : List Page × Description) : Nat × Nat :=
  (c.unentered call.1, call.2.size)

variable {call inner : List Page × Description}

-- A definition may be larger than the concept that it stands for, but then a concept is entered.
theorem Opens.rank_lt (h : c.Opens call inner) :
    Prod.Lex (· < ·) (· < ·) (c.rank inner) (c.rank call) := by
  cases h with
  | concept henter => exact .left _ _ (unentered_lt henter)
  | someProperty p inner =>
    apply Prod.Lex.right
    rw [Description.size]
    exact Nat.lt_succ_self _
  | conjunct hpart =>
    apply Prod.Lex.right
    rw [Description.size]
    exact Description.size_lt_of_mem hpart
  | disjunct hpart =>
    apply Prod.Lex.right
    rw [Description.size]
    exact Description.size_lt_of_mem hpart

theorem wellFounded_opens (c : Catalog) : WellFounded fun inner call => c.Opens call inner :=
  Subrelation.wf Opens.rank_lt
    (InvImage.wf c.rank (WellFounded.prod_lex Nat.lt_wfRel.wf Nat.lt_wfRel.wf))

theorem Opens.expanding (h : c.Opens call inner) (hcall : c.Expanding call.1) :
    c.Expanding inner.1 := by
  cases h with
  | concept henter =>
    obtain ⟨hpath, hdefined⟩ := enter?_eq_some.mp henter
    exact ⟨List.nodup_cons.mpr ⟨hpath, hcall.nodup⟩,
      List.forall_mem_cons.mpr ⟨mem_defined.mpr ⟨_, hdefined⟩, hcall.defined⟩⟩
  | someProperty p inner => exact hcall
  | conjunct _ => exact hcall
  | disjunct _ => exact hcall

theorem Expanding.reachable (hcall : c.Expanding call.1)
    (h : Relation.ReflTransGen c.Opens call inner) : c.Expanding inner.1 := by
  induction h with
  | refl => exact hcall
  | tail _ hlast ih => exact hlast.expanding ih

end Catalog

-- A way to compile descriptions, each on a path of concepts.
abbrev Recursion := List Page → Description → Variable → Option SortTarget → Build Condition

namespace Compiler

open Build

-- The steps of a compilation, with a way to compile the descriptions within.
def buildBy (c : Compiler) (keys : SortKeys) (again : Recursion) (path : List Page) (kind : Kind)
    (d : Description) (join : Variable) (target : Option SortTarget) : Build Condition :=
  (Machine.plain keys).build c join target d (fun part _ => again path part)
    (fun page definition _ otherwise =>
      if page ∈ path then otherwise else again (page :: path) definition join target)
    kind

def compileBy (c : Compiler) (keys : SortKeys) (again : Recursion) (path : List Page)
    (d : Description) (join : Variable) (target : Option SortTarget) : Build Condition :=
  (Machine.plain keys).compile c join target d (fun part _ => again path part)
    (fun page definition _ otherwise =>
      if page ∈ path then otherwise else again (page :: path) definition join target)

variable {c : Compiler} {keys : SortKeys} {path : List Page} {join : Variable}
  {target : Option SortTarget}

theorem build_eq (kind : Kind) (d : Description) :
    c.build keys path kind d join target =
      c.buildBy keys (c.compile keys) path kind d join target := rfl

theorem compile_eq (d : Description) :
    c.compile keys path d join target = c.compileBy keys (c.compile keys) path d join target := by
  rw [compile]
  rfl

section Congruence

variable {again again' : Recursion} {d : Description}

theorem expand_congr (h : ∀ inner, c.catalog.Opens (path, d) inner →
      again inner.1 inner.2 = again' inner.1 inner.2) {page : Page} {definition : Description}
    (hd : d = .concept page) (hdefined : c.catalog.concept? page = some definition)
    (otherwise : Build Condition) :
    (if page ∈ path then otherwise else again (page :: path) definition join target) =
      if page ∈ path then otherwise else again' (page :: path) definition join target := by
  subst hd
  by_cases hentered : page ∈ path
  · rw [if_pos hentered, if_pos hentered]
  · have hopens := Catalog.Opens.concept (Catalog.enter?_eq_some.mpr ⟨hentered, hdefined⟩)
    rw [if_neg hentered, if_neg hentered, h _ hopens]

-- A step compiles nothing but what the description opens.
theorem buildBy_congr (h : ∀ inner, c.catalog.Opens (path, d) inner →
      again inner.1 inner.2 = again' inner.1 inner.2) (kind : Kind) :
    c.buildBy keys again path kind d join target =
      c.buildBy keys again' path kind d join target := by
  apply (Machine.Lockstep.refl c (Machine.plain keys)).build
  · intro part hpart join target
    rw [h _ (.part hpart)]
  · intro page definition hdefined hd
    exact expand_congr h hd hdefined _
  · exact fun _ _ => trivial

theorem compileBy_congr (h : ∀ inner, c.catalog.Opens (path, d) inner →
      again inner.1 inner.2 = again' inner.1 inner.2) :
    c.compileBy keys again path d join target = c.compileBy keys again' path d join target := by
  apply (Machine.Lockstep.refl c (Machine.plain keys)).compile
  · exact fun _ _ => trivial
  · intro part hpart join target
    rw [h _ (.part hpart)]
  · intro page definition hdefined hd
    exact expand_congr h hd hdefined _

end Congruence

-- There is one way only to compile a description step by step, on the calls that it leads to.
theorem eq_compile {f : Recursion} (call : List Page × Description)
    (hf : ∀ inner, Relation.ReflTransGen c.catalog.Opens call inner →
      ∀ join target, f inner.1 inner.2 join target =
        c.compileBy keys f inner.1 inner.2 join target) :
    f call.1 call.2 = c.compile keys call.1 call.2 := by
  induction call using c.catalog.wellFounded_opens.induction with
  | _ call ih =>
    funext join target
    rw [hf call .refl, compile_eq]
    exact compileBy_congr fun inner hinner =>
      ih inner hinner fun further hfurther => hf further (.head hinner hfurther)

-- A compilation comes to an end, whatever the definitions of the concepts refer to and whichever
-- builders there are: every call has a smaller rank than the call that it is made in, and no
-- concept is entered within itself. So there is one way only to do what the steps say.
theorem compile_total (c : Compiler) (keys : SortKeys) (path : List Page) (d : Description)
    (hpath : c.catalog.Expanding path) :
    (∀ call, Relation.ReflTransGen c.catalog.Opens (path, d) call →
      c.catalog.Expanding call.1 ∧ ∀ inner, c.catalog.Opens call inner →
        Prod.Lex (· < ·) (· < ·) (c.catalog.rank inner) (c.catalog.rank call)) ∧
    (∀ again : Recursion, (∀ inner, c.catalog.Opens (path, d) inner →
        again inner.1 inner.2 = c.compile keys inner.1 inner.2) →
      ∀ join target,
        c.compile keys path d join target = c.compileBy keys again path d join target ∧
        ∀ kind, c.build keys path kind d join target =
          c.buildBy keys again path kind d join target) ∧
    ∀ f : Recursion, (∀ call, Relation.ReflTransGen c.catalog.Opens (path, d) call →
        ∀ join target, f call.1 call.2 join target =
          c.compileBy keys f call.1 call.2 join target) →
      f path d = c.compile keys path d := by
  refine ⟨?_, ?_, ?_⟩
  · intro call hcall
    exact ⟨Catalog.Expanding.reachable hpath hcall, fun inner hinner => hinner.rank_lt⟩
  · intro again hagain join target
    refine ⟨?_, ?_⟩
    · rw [compile_eq, compileBy_congr hagain]
    · intro kind
      rw [build_eq, buildBy_congr hagain]
  · intro f hf
    exact eq_compile (path, d) hf

-- Two concepts that are defined by each other, where one of them is being expanded, and builders of
-- which one refuses namespaces and another one takes comparisons with values for things.
theorem compile_total_circular :
    let coast : Page := ⟨"Coast", 108⟩
    let island : Page := ⟨"Island", 108⟩
    let c : Compiler :=
      { catalog := (({} : Catalog).addConcept coast (.conjunction
          [.concept island, .concept island])).addConcept island
            (.disjunction [.concept coast, .inNamespace 0])
        builders := [{ name := "closed", handles := [.inNamespace], recipe := .refuse },
          { name := "loose", handles := [.value], recipe := .standard .thing }] ++
            Builder.standards }
    c.catalog.Expanding [coast] ∧ c.catalog.Expanding [island, coast] ∧
      c.catalog.rank ([coast], .concept island) = (1, 1) ∧
      c.catalog.rank ([island, coast], .disjunction [.concept coast, .inNamespace 0]) = (0, 3) ∧
      ∀ f : Recursion, (∀ path d join target, f path d join target =
          c.compileBy ∅ f path d join target) →
        f [coast] (.concept island) = c.compile ∅ [coast] (.concept island) := by
  intro coast island c
  have hpath : c.catalog.Expanding [coast] := ⟨by simp, by decide +kernel⟩
  obtain ⟨hcalls, -, hunique⟩ := compile_total c ∅ [coast] (.concept island) hpath
  have hopens : c.catalog.Opens ([coast], .concept island)
      ([island, coast], .disjunction [.concept coast, .inNamespace 0]) := .concept rfl
  have hone : c.catalog.unentered [coast] = 1 := by decide +kernel
  have hzero : c.catalog.unentered [island, coast] = 0 := by decide +kernel
  refine ⟨hpath, (hcalls _ (.single hopens)).1, ?_, ?_, ?_⟩
  · simp [Catalog.rank, Description.size, hone]
  · simp [Catalog.rank, Description.size, hzero]
  · intro f hf
    exact hunique f fun call _ => hf call.1 call.2

end Compiler

end WikiQuery
