import Mathlib.Data.List.Forall2
import WikiQuery.Proofs.Condition.Atoms
import WikiQuery.Proofs.KeyMap

namespace WikiQuery

section Rel

variable {α β γ δ : Type} {R : α → β → Prop} {S : γ → δ → Prop} {x x₁ : Option α} {y y₁ : Option β}

theorem rel_isSome (h : Option.Rel R x y) : x.isSome = y.isSome := by
  cases h <;> rfl

theorem rel_or (h : Option.Rel R x y) (h₁ : Option.Rel R x₁ y₁) :
    Option.Rel R (x.or x₁) (y.or y₁) := by
  cases h with
  | none => simpa using h₁
  | some hab => exact .some hab

theorem rel_bind {f : α → Option γ} {g : β → Option δ} (h : Option.Rel R x y)
    (hfg : ∀ a b, R a b → Option.Rel S (f a) (g b)) : Option.Rel S (x >>= f) (y >>= g) := by
  cases h with
  | none => exact .none
  | some hab => exact hfg _ _ hab

theorem isEmpty_eq_of_forall₂ {l : List α} {l' : List β} (h : List.Forall₂ R l l') :
    l.isEmpty = l'.isEmpty := by
  cases h <;> rfl

end Rel

-- Which names in two conditions stand for the same: variables of entities, variables to sort by,
-- and references to sub-queries.
structure Correspondence where
  entity : Variable → Variable → Prop
  sort : Variable → Variable → Prop
  closure : SubqueryId → SubqueryId → Prop

variable {r : Correspondence}

inductive Operand.Alike (r : Correspondence) : Operand → Operand → Prop where
  | entity {v w : Variable} : r.entity v w → Alike r (.entity v) (.entity w)
  | field {v w : Variable} (name : String) : r.entity v w → Alike r (.field name v) (.field name w)
  | value (x : Value) : Alike r (.value x) (.value x)
  | text (s : String) : Alike r (.text s) (.text s)

inductive Test.Alike (r : Correspondence) : Test → Test → Prop where
  | compare {left left' right right' : Operand} (relation : Relation) :
    left.Alike r left' → right.Alike r right' →
    Alike r (.compare left relation right) (.compare left' relation right')
  | regex {operand operand' : Operand} (pattern : String) (negated : Bool) :
    operand.Alike r operand' →
    Alike r (.regex operand pattern negated) (.regex operand' pattern negated)

def Filter.Alike (r : Correspondence) : Filter → Filter → Prop := List.Forall₂ (Test.Alike r)

inductive Term.Alike (r : Correspondence) : Term → Term → Prop where
  | entity {v w : Variable} : r.entity v w → Alike r (.entity v) (.entity w)
  | resource (x : Resource) : Alike r (.resource x) (.resource x)

-- Clauses are alike if they are equal but for names that correspond to each other.
inductive Clause.Alike (r : Correspondence) : Clause → Clause → Prop where
  | triple {s s' o o' : Term} {closure closure' : Option SubqueryId} (p : Property) :
    s.Alike r s' → o.Alike r o' → Option.Rel r.closure closure closure' →
    Alike r (.triple s p o closure) (.triple s' p o' closure')
  | hasValue {v w : Variable} {closure closure' : Option SubqueryId} (p : Property) :
    r.entity v w → Option.Rel r.closure closure closure' →
    Alike r (.hasValue v p closure) (.hasValue w p closure')
  | inNamespace {v w : Variable} (number : Int32) :
    r.entity v w → Alike r (.inNamespace v number) (.inNamespace w number)
  | inCategory {v w : Variable} {closure closure' : Option SubqueryId} (ids : List Nat) :
    r.entity v w → Option.Rel r.closure closure closure' →
    Alike r (.inCategory v ids closure) (.inCategory w ids closure')
  | sortKey {v w key key' : Variable} :
    r.entity v w → r.sort key key' → Alike r (.sortKey v key) (.sortKey w key')
  | filter {f f' : Filter} : f.Alike r f' → Alike r (.filter f) (.filter f')
  | union {groups groups' : List (List Clause)} :
    List.Forall₂ (List.Forall₂ (Alike r)) groups groups' → Alike r (.union groups) (.union groups')

def Pattern.Alike (r : Correspondence) : Pattern → Pattern → Prop := List.Forall₂ (Clause.Alike r)

inductive Form.Alike {γ : Type} (r : Correspondence) (R : γ → γ → Prop) :
    Form γ → Form γ → Prop where
  | everything : Alike r R .everything .everything
  | nothing : Alike r R .nothing .nothing
  | pattern {p p' : Pattern} : p.Alike r p' → Alike r R (.pattern p) (.pattern p')
  | filter {f f' : Filter} : f.Alike r f' → Alike r R (.filter f) (.filter f')
  | singleton {p p' : Pattern} (x : Resource) :
    p.Alike r p' → Alike r R (.singleton x p) (.singleton x p')
  | alternatives {branches branches' : List γ} :
    List.Forall₂ R branches branches' → Alike r R (.alternatives branches) (.alternatives branches')

def KeyMap.Alike {α : Type} (R : α → α → Prop) (m m' : KeyMap α) : Prop :=
  ∀ key, Option.Rel R (m.get? key) (m'.get? key)

inductive Attachments.Alike {γ : Type} (r : Correspondence) (R : γ → γ → Prop) :
    Attachments γ → Attachments γ → Prop where
  | mk {vocabularies : KeyMap String} {weak weak' : List γ}
    {sortVariables sortVariables' : KeyMap Variable} {safe : Bool} :
    List.Forall₂ R weak weak' → sortVariables.Alike r.sort sortVariables' →
    Alike r R ⟨vocabularies, weak, sortVariables, safe⟩ ⟨vocabularies, weak', sortVariables', safe⟩

-- Conditions are alike if they are equal but for names that correspond to each other, with all that
-- goes along with them.
inductive Condition.Alike (r : Correspondence) : Condition → Condition → Prop where
  | mk {form form' : Form Condition} {a a' : Attachments Condition} :
    form.Alike r (Alike r) form' → a.Alike r (Alike r) a' → Alike r ⟨form, a⟩ ⟨form', a'⟩

namespace KeyMap.Alike

variable {α : Type} {R : α → α → Prop} {m m' n n' : KeyMap α} {x y : α}

theorem empty : KeyMap.Alike R ∅ ∅ := fun _ => .none

theorem contains (h : m.Alike R m') (key : String) : m.contains key = m'.contains key :=
  rel_isSome (h key)

theorem insert (h : m.Alike R m') (key : String) (hxy : R x y) :
    (m.insert key x).Alike R (m'.insert key y) := by
  intro k
  rw [get?_insert, get?_insert]
  by_cases hk : k = key
  · simpa [hk] using hxy
  · simpa [hk] using h k

theorem union (hm : m.Alike R m') (hn : n.Alike R n') : (m.union n).Alike R (m'.union n') := by
  intro k
  rw [get?_union, get?_union]
  exact rel_or (hm k) (hn k)

end KeyMap.Alike

theorem Pattern.Alike.addFilter {p p' : Pattern} {f f' : Filter} (hp : p.Alike r p')
    (hf : f.Alike r f') : (p.addFilter f).Alike r (p'.addFilter f') := by
  unfold Pattern.addFilter
  cases hf with
  | nil => exact hp
  | cons htest hrest =>
    exact List.rel_append hp (.cons (.filter (.cons htest hrest)) .nil)

namespace Condition

theorem Alike.form {b b' : Condition} (h : b.Alike r b') :
    b.form.Alike r (Condition.Alike r) b'.form := by
  cases h
  assumption

-- Conditions that are alike become patterns that are alike, on variables that correspond.
theorem toPattern?_alike {b b' : Condition} {v w : Variable} (hjoin : r.entity v w)
    (h : b.form.Alike r (Condition.Alike r) b'.form) :
    Option.Rel (Pattern.Alike r) (b.toPattern? v) (b'.toPattern? w) := by
  induction b using nested_induction generalizing b' with
  | node form a ih _ =>
    obtain ⟨form', a'⟩ := b'
    cases h with
    | everything => exact .some .nil
    | nothing => exact .none
    | pattern hp => exact .some hp
    | filter hf => exact .some (Pattern.Alike.addFilter .nil hf)
    | singleton x hp =>
      have hbinds : Filter.Alike r [.binds v x] [.binds w x] :=
        .cons (.compare .eq (.entity hjoin) (.value (.page x))) .nil
      exact .some (hp.addFilter hbinds)
    | @alternatives branches branches' hbranches =>
      have hbranch : ∀ b ∈ branches, ∀ b', b.Alike r b' →
          Option.Rel (Pattern.Alike r) (b.toPattern? v) (b'.toPattern? w) :=
        fun b hb b' h => ih b hb h.form
      have hpatterns : List.Forall₂ (Pattern.Alike r) (branches.filterMap (toPattern? v))
          (branches'.filterMap (toPattern? w)) :=
        List.rel_filterMap (fun b b' hb => hb.1 b' hb.2)
          ((List.forall₂_and_left ..).mpr ⟨hbranch, hbranches⟩)
      rw [← branchPatterns_eq_filterMap, ← branchPatterns_eq_filterMap] at hpatterns
      exact .some (.cons (.union hpatterns) .nil)

end Condition

end WikiQuery
