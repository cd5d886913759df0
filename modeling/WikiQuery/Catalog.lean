import WikiQuery.Description

namespace WikiQuery

-- What the wiki knows of a property: its number and what kind of values it has.
structure PropertyInfo where
  id : Nat
  datatype : Datatype
deriving DecidableEq

-- The categories, properties and concepts of a wiki, the latest entry first. A name that is entered
-- again is looked up by its latest entry.
structure Catalog where
  categories : List (Page × Nat) := []
  properties : List (String × PropertyInfo) := []
  concepts : List (Page × Description) := []

namespace Catalog

def addCategory (c : Catalog) (category : Page) (id : Nat) : Catalog :=
  { c with categories := (category, id) :: c.categories }

-- Properties are numbered as they come, from one.
def addProperty (c : Catalog) (key : String) (datatype : Datatype) : Catalog :=
  { c with properties := (key, ⟨c.properties.length + 1, datatype⟩) :: c.properties }

def addConcept (c : Catalog) (concept : Page) (definition : Description) : Catalog :=
  { c with concepts := (concept, definition) :: c.concepts }

def category? (c : Catalog) (category : Page) : Option Nat := c.categories.lookup category

-- A property is looked up by its key; its direction and its vocabulary play no part.
def property? (c : Catalog) (p : Property) : Option PropertyInfo := c.properties.lookup p.key

def concept? (c : Catalog) (concept : Page) : Option Description := c.concepts.lookup concept

-- How many concepts are left that are not on a path of concepts.
def remaining (c : Catalog) (path : List Page) : Nat :=
  (c.concepts.filter fun e => e.1 ∉ path).length

theorem mem_of_lookup {l : List (Page × Description)} {concept : Page} {definition : Description}
    (h : l.lookup concept = some definition) : (concept, definition) ∈ l := by
  induction l with
  | nil => cases h
  | cons head rest ih =>
    obtain ⟨p, d⟩ := head
    by_cases hp : concept = p
    · subst hp
      simp only [List.lookup_cons_self, Option.some.injEq] at h
      simp [h]
    · rw [List.lookup_cons, beq_false_of_ne hp] at h
      exact List.mem_cons_of_mem _ (ih h)

-- Entering a concept that is not on the path leaves fewer.
theorem remaining_lt {c : Catalog} {concept : Page} {definition : Description} {path : List Page}
    (h : c.concept? concept = some definition) (hp : concept ∉ path) :
    c.remaining (concept :: path) < c.remaining path := by
  have hfilter : c.concepts.filter (fun e => e.1 ∉ concept :: path) =
      (c.concepts.filter fun e => e.1 ∉ path).filter fun e => e.1 ≠ concept := by
    rw [List.filter_filter]
    congr 1
    funext e
    simp
  unfold remaining
  rw [hfilter]
  exact List.length_filter_lt_length_iff_exists.mpr
    ⟨(concept, definition), by simp [mem_of_lookup h, hp], by simp⟩

end Catalog

-- The stored fields by which values are compared and sorted.
structure FieldPair where
  index : String
  sort : String
deriving DecidableEq

-- Which fields hold the values of a property, for each kind of values.
structure FieldNames where
  fields : Property → Datatype → FieldPair := fun _ _ => ⟨"index", "sortkey"⟩

end WikiQuery
