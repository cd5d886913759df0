import WikiQuery.Proofs.Compile.Rules
import WikiQuery.Proofs.Meaning.Interpretation

namespace WikiQuery.Compiler

universe u

variable {E : Type u}

-- A stored field of an entity compares with a value. Pages are compared by what they sort by.
def Compares (c : Compiler) (I : Interpretation E) (p : Property) (relation : Relation) (x : Value)
    (e : E) : Prop :=
  match x with
  | .page r => I.compares (.field (c.fields.fields p .page).sort e) relation (.text r.sortKey)
  | x => I.compares (.field (c.fields.fields p x.datatype).index e) relation (.value x)

-- A stored field of an entity matches a wildcard pattern.
def Matches (c : Compiler) (I : Interpretation E) (p : Property) (pattern : String)
    (negated : Bool) (e : E) : Prop :=
  I.fits (.field (c.fields.fields p .text).index e) (Text.likeRegex pattern) negated

-- What it means for an entity to compare with a value. Comparators without effect are always met.
def MeetsValue (c : Compiler) (I : Interpretation E) (p : Property) (comparator : Comparator)
    (x : Value) (e : E) : Prop :=
  match comparator, x with
  | .eq, .page r => e = I.denotes r
  | .like, .text s => c.Matches I p s false e
  | .notLike, .text s => c.Matches I p s true e
  | .like, _ => True
  | .notLike, _ => True
  | .unknown, _ => True
  | .eq, x => c.Compares I p .eq x e
  | .neq, x => c.Compares I p .neq x e
  | .less, x => c.Compares I p .less x e
  | .leq, x => c.Compares I p .leq x e
  | .greater, x => c.Compares I p .greater x e
  | .geq, x => c.Compares I p .geq x e

-- What it means for an entity to have a value of a property: pages are entities of their own, and
-- other values stay with their entity.
def MeetsProperty (c : Compiler) (I : Interpretation E) (p : Property) (inner : E → Prop) (e : E) :
    Prop :=
  match c.catalog.property? p with
  | none => False
  | some info =>
    if info.datatype.isPage then
      ∃ v, (if p.inverse then I.related p c.settings.propertyDepth v e
        else I.related p c.settings.propertyDepth e v) ∧ inner v
    else I.valued p c.settings.propertyDepth e ∧ inner e

-- What a description means: the entities that meet it. A concept stands for its definition, unless
-- it has none or the description stands within its definition.
def Meets (c : Compiler) (I : Interpretation E) (path : List Page) (d : Description) (e : E) :
    Prop :=
  match d with
  | .thing => True
  | .inNamespace number => I.space e = number
  | .inCategory categories => c.catalog.known categories ≠ [] ∧
    I.member (c.catalog.known categories) c.settings.categoryDepth e
  | .concept page =>
    match _h : c.catalog.enter? path page with
    | none => False
    | some definition => Meets c I (page :: path) definition e
  | .value p comparator x => c.MeetsValue I p comparator x e
  | .someProperty p inner => c.MeetsProperty I p (fun v => Meets c I path inner v) e
  | .conjunction parts => ∀ part ∈ parts, Meets c I path part e
  | .disjunction parts => ∃ (part : Description) (_ : part ∈ parts), Meets c I path part e
termination_by (c.catalog.remaining path, sizeOf d)
decreasing_by
  · exact Prod.Lex.left _ _ (Catalog.remaining_enter_lt _h)
  all_goals decreasing_tactic

variable {c : Compiler} {I : Interpretation E} {path : List Page} {e : E}

theorem meets_thing : c.Meets I path .thing e := by
  rw [Meets]
  trivial

theorem meets_inNamespace {number : Int32} :
    c.Meets I path (.inNamespace number) e ↔ I.space e = number := by
  rw [Meets]

theorem meets_inCategory {categories : List Page} :
    c.Meets I path (.inCategory categories) e ↔ c.catalog.known categories ≠ [] ∧
      I.member (c.catalog.known categories) c.settings.categoryDepth e := by
  rw [Meets]

theorem not_meets_concept {page : Page} (h : c.catalog.enter? path page = none) :
    ¬ c.Meets I path (.concept page) e := by
  rw [Meets]
  split
  · exact not_false
  · simp_all

theorem meets_concept {page : Page} {definition : Description}
    (h : c.catalog.enter? path page = some definition) :
    c.Meets I path (.concept page) e ↔ c.Meets I (page :: path) definition e := by
  rw [Meets]
  split
  · simp_all
  · simp_all

theorem meets_value {p : Property} {comparator : Comparator} {x : Value} :
    c.Meets I path (.value p comparator x) e ↔ c.MeetsValue I p comparator x e := by
  rw [Meets]

theorem not_meets_someProperty {p : Property} {inner : Description}
    (h : c.catalog.property? p = none) : ¬ c.Meets I path (.someProperty p inner) e := by
  rw [Meets, MeetsProperty, h]
  exact not_false

theorem meets_someProperty_page {p : Property} {inner : Description} {info : PropertyInfo}
    (h : c.catalog.property? p = some info) (hpage : info.datatype.isPage = true) :
    c.Meets I path (.someProperty p inner) e ↔
      ∃ v, (if p.inverse then I.related p c.settings.propertyDepth v e
        else I.related p c.settings.propertyDepth e v) ∧ c.Meets I path inner v := by
  rw [Meets, MeetsProperty, h]
  simp [hpage]

theorem meets_someProperty_inline {p : Property} {inner : Description} {info : PropertyInfo}
    (h : c.catalog.property? p = some info) (hpage : info.datatype.isPage = false) :
    c.Meets I path (.someProperty p inner) e ↔
      I.valued p c.settings.propertyDepth e ∧ c.Meets I path inner e := by
  rw [Meets, MeetsProperty, h]
  simp [hpage]

theorem meets_conjunction {parts : List Description} :
    c.Meets I path (.conjunction parts) e ↔ ∀ part ∈ parts, c.Meets I path part e := by
  rw [Meets]

theorem meets_disjunction {parts : List Description} :
    c.Meets I path (.disjunction parts) e ↔ ∃ part ∈ parts, c.Meets I path part e := by
  rw [Meets]
  simp only [exists_prop]

end WikiQuery.Compiler
