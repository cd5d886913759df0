import WikiQuery.Proofs.Condition.Gather
import WikiQuery.Proofs.Condition.Same

namespace WikiQuery

def Value.numbers : Value → List Number
  | .number x => [x]
  | _ => []

def Operand.numbers : Operand → List Number
  | .value x => x.numbers
  | _ => []

def Test.numbers : Test → List Number
  | .compare left _ right => left.numbers ++ right.numbers
  | .regex operand _ _ => operand.numbers

-- Numbers stand in tests only.
def Survey.numbers : Survey Number where
  clause _ := []
  test := Test.numbers
  resource _ := []

def Form.numbers {γ : Type} : Form γ → List Number
  | .pattern p => p.gather .numbers
  | .filter f => f.flatMap Test.numbers
  | .singleton _ p => p.gather .numbers
  | _ => []

-- The numbers that stand anywhere in a condition: in its own form, in its branches, and in the weak
-- conditions that go along with it.
def Condition.numbers : Condition → List Number
  | ⟨form, a⟩ => form.numbers ++ (form.branches ++ a.weak).flatMap numbers
decreasing_by exact (List.mem_append.mp ‹_›).elim sizeOf_branch_lt sizeOf_weak_lt

theorem Number.same_self_iff {x : Number} : x.same x = true ↔ x.isNaN = false := by
  simp [same]

theorem Value.same_self_iff {x : Value} :
    x.same x = true ↔ ∀ n ∈ x.numbers, n.isNaN = false := by
  cases x <;> simp [same, numbers, Number.same_self_iff]

theorem Operand.same_self_iff {operand : Operand} :
    operand.same operand = true ↔ ∀ n ∈ operand.numbers, n.isNaN = false := by
  cases operand <;> simp [same, numbers, Value.same_self_iff]

theorem Test.same_self_iff {test : Test} :
    test.same test = true ↔ ∀ n ∈ test.numbers, n.isNaN = false := by
  cases test with
  | compare left relation right =>
    rw [numbers, List.forall_mem_append, ← Operand.same_self_iff, ← Operand.same_self_iff]
    simp [same]
  | regex operand pattern negated =>
    rw [numbers, ← Operand.same_self_iff]
    simp [same]

theorem Filter.same_self_iff {f : Filter} :
    f.same f = true ↔ ∀ n ∈ f.flatMap Test.numbers, n.isNaN = false := by
  rw [same_iff, List.forall₂_same, List.forall_mem_flatMap]
  simp only [Test.same_self_iff]

theorem Clause.same_self_iff {clause : Clause} :
    clause.same clause = true ↔ ∀ n ∈ clause.gather .numbers, n.isNaN = false := by
  induction clause using nested_induction with
  | filter f =>
    rw [same, Filter.same_self_iff, gather]
    rfl
  | union groups ih =>
    rw [same, sameGroups_iff, List.forall₂_same, gather, List.forall_mem_flatMap]
    refine forall₂_congr fun group hgroup => ?_
    rw [List.forall₂_same, List.forall_mem_flatMap]
    exact forall₂_congr (ih group hgroup)
  | _ => simp [same, gather, Survey.numbers]

theorem Pattern.same_self_iff {p : Pattern} :
    p.same p = true ↔ ∀ n ∈ p.gather .numbers, n.isNaN = false := by
  rw [same, Clause.sameAll_iff, List.forall₂_same, gather, List.forall_mem_flatMap]
  simp only [Clause.same_self_iff]

namespace Condition

theorem sameForm_self_iff {form : Form Condition}
    (ih : ∀ b ∈ form.branches, (b.same b = true ↔ ∀ n ∈ b.numbers, n.isNaN = false)) :
    sameForm form form = true ↔ (∀ n ∈ form.numbers, n.isNaN = false) ∧
      ∀ n ∈ form.branches.flatMap numbers, n.isNaN = false := by
  cases form with
  | everything => simp [sameForm, Form.numbers, Form.branches]
  | nothing => simp [sameForm, Form.numbers, Form.branches]
  | pattern p => simp [sameForm, Form.numbers, Form.branches, Pattern.same_self_iff]
  | filter f => simp [sameForm, Form.numbers, Form.branches, Filter.same_self_iff]
  | singleton r p => simp [sameForm, Form.numbers, Form.branches, Pattern.same_self_iff]
  | alternatives branches =>
    rw [sameForm, sameAll_iff, List.forall₂_same, List.forall_mem_flatMap]
    simp only [Form.numbers, List.not_mem_nil, false_implies, implies_true, true_and]
    exact forall₂_congr ih

-- A condition equals itself just if every number in it is one.
theorem same_self_iff {c : Condition} :
    c.same c = true ↔ ∀ n ∈ c.numbers, n.isNaN = false := by
  induction c using nested_induction with
  | node form a ihbranches ihweak =>
    have hweak : sameAttachments a a = true ↔ ∀ n ∈ a.weak.flatMap numbers, n.isNaN = false := by
      rw [sameAttachments_iff, List.forall₂_same, List.forall_mem_flatMap]
      simp only [true_and, and_true]
      exact forall₂_congr ihweak
    rw [same, Bool.and_eq_true, sameForm_self_iff ihbranches, hweak, numbers, List.flatMap_append,
      List.forall_mem_append, List.forall_mem_append, and_assoc]

end Condition

end WikiQuery
