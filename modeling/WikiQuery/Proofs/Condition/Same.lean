import Mathlib.Data.List.Forall2
import WikiQuery.Proofs.Condition.Atoms

namespace WikiQuery

-- An element from which a relation can be turned round, and followed from there.
structure Regular {α : Type} (R : α → α → Prop) (a : α) : Prop where
  symm : ∀ {b}, R a b → R b a
  trans : ∀ {b c}, R a b → R b c → R a c

theorem Regular.congr {α : Type} {R S : α → α → Prop} {a : α} (h : Regular R a)
    (hRS : ∀ a b, R a b ↔ S a b) : Regular S a where
  symm hab := (hRS ..).mp (h.symm ((hRS ..).mpr hab))
  trans hab hbc := (hRS ..).mp (h.trans ((hRS ..).mpr hab) ((hRS ..).mpr hbc))

theorem Regular.forall₂ {α : Type} {R : α → α → Prop} {l : List α} (h : ∀ a ∈ l, Regular R a) :
    Regular (List.Forall₂ R) l where
  symm := by
    intro l' hl
    induction hl with
    | nil => exact .nil
    | cons hab _ ih =>
      obtain ⟨ha, hrest⟩ := List.forall_mem_cons.mp h
      exact .cons (ha.symm hab) (ih hrest)
  trans := by
    intro l' l'' hl hl'
    induction hl generalizing l'' with
    | nil => exact hl'
    | cons hab _ ih =>
      obtain ⟨ha, hrest⟩ := List.forall_mem_cons.mp h
      cases hl' with
      | cons hbc htail => exact .cons (ha.trans hab hbc) (ih hrest htail)

theorem Number.regular_same (x : Number) : Regular (fun x y => x.same y = true) x where
  symm := by
    intro y h
    simp only [same, Bool.and_eq_true, Bool.or_eq_true, beq_iff_eq] at h ⊢
    exact ⟨⟨h.1.2, h.1.1⟩, h.2.imp Eq.symm And.symm⟩
  trans := by
    intro y z h h'
    simp only [same, Bool.and_eq_true, Bool.or_eq_true, beq_iff_eq] at h h' ⊢
    refine ⟨⟨h.1.1, h'.1.2⟩, ?_⟩
    -- zero has two signs, and every other number a single spelling
    rcases h.2 with hxy | ⟨hx, hy⟩
    · have heq : x = y := congrArg Number.mk hxy
      rw [heq]
      exact h'.2
    · rcases h'.2 with hyz | ⟨-, hz⟩
      · have heq : y = z := congrArg Number.mk hyz
        exact .inr ⟨hx, heq ▸ hy⟩
      · exact .inr ⟨hx, hz⟩

theorem Value.regular_same (x : Value) : Regular (fun x y => x.same y = true) x where
  symm := by
    intro y h
    cases x with
    | number m =>
      cases y with
      | number n => exact m.regular_same.symm h
      | _ => cases h
    | _ => cases y <;> simp_all [same]
  trans := by
    intro y z h h'
    cases x with
    | number m =>
      cases y with
      | number n =>
        cases z with
        | number k => exact m.regular_same.trans h h'
        | _ => cases h'
      | _ => cases h
    | _ => cases y <;> cases z <;> simp_all [same]

theorem Operand.regular_same (o : Operand) : Regular (fun x y => x.same y = true) o where
  symm := by
    intro y h
    cases o with
    | value x =>
      cases y with
      | value x' => exact x.regular_same.symm h
      | _ => cases h
    | _ => cases y <;> simp_all [same]
  trans := by
    intro y z h h'
    cases o with
    | value x =>
      cases y with
      | value x' =>
        cases z with
        | value x'' => exact x.regular_same.trans h h'
        | _ => cases h'
      | _ => cases h
    | _ => cases y <;> cases z <;> simp_all [same]

theorem Test.regular_same (test : Test) : Regular (fun x y => x.same y = true) test where
  symm := by
    intro y h
    cases test with
    | compare left relation right =>
      cases y with
      | compare left' relation' right' =>
        simp only [same, Bool.and_eq_true, decide_eq_true_eq] at h ⊢
        exact ⟨⟨left.regular_same.symm h.1.1, h.1.2.symm⟩, right.regular_same.symm h.2⟩
      | regex => cases h
    | regex operand pattern negated =>
      cases y with
      | compare => cases h
      | regex operand' pattern' negated' =>
        simp only [same, Bool.and_eq_true, decide_eq_true_eq] at h ⊢
        exact ⟨⟨operand.regular_same.symm h.1.1, h.1.2.symm⟩, h.2.symm⟩
  trans := by
    intro y z h h'
    cases test with
    | compare left relation right =>
      cases y with
      | compare left' relation' right' =>
        cases z with
        | compare left'' relation'' right'' =>
          simp only [same, Bool.and_eq_true, decide_eq_true_eq] at h h' ⊢
          exact ⟨⟨left.regular_same.trans h.1.1 h'.1.1, h.1.2.trans h'.1.2⟩,
            right.regular_same.trans h.2 h'.2⟩
        | regex => cases h'
      | regex => cases h
    | regex operand pattern negated =>
      cases y with
      | compare => cases h
      | regex operand' pattern' negated' =>
        cases z with
        | compare => cases h'
        | regex operand'' pattern'' negated'' =>
          simp only [same, Bool.and_eq_true, decide_eq_true_eq] at h h' ⊢
          exact ⟨⟨operand.regular_same.trans h.1.1 h'.1.1, h.1.2.trans h'.1.2⟩, h.2.trans h'.2⟩

theorem Filter.same_iff {f g : Filter} :
    f.same g = true ↔ List.Forall₂ (fun s t => s.same t = true) f g := by
  induction f generalizing g with
  | nil => cases g <;> simp [Filter.same]
  | cons s f ih => cases g <;> simp [Filter.same, ih]

theorem Filter.regular_same (f : Filter) : Regular (fun f g => Filter.same f g = true) f :=
  (Regular.forall₂ fun test _ => test.regular_same).congr fun _ _ => same_iff.symm

namespace Clause

theorem sameAll_iff {p q : List Clause} :
    sameAll p q = true ↔ List.Forall₂ (fun c d => c.same d = true) p q := by
  induction p generalizing q with
  | nil => cases q <;> simp [sameAll]
  | cons c p ih => cases q <;> simp [sameAll, ih]

theorem sameGroups_iff {gs hs : List (List Clause)} :
    sameGroups gs hs = true ↔
      List.Forall₂ (List.Forall₂ fun c d => c.same d = true) gs hs := by
  induction gs generalizing hs with
  | nil => cases hs <;> simp [sameGroups]
  | cons g gs ih => cases hs <;> simp [sameGroups, sameAll_iff, ih]

theorem regular_same (c : Clause) : Regular (fun c d => c.same d = true) c := by
  induction c using nested_induction with
  | filter f =>
    constructor
    · intro d h
      cases d with
      | filter g => exact f.regular_same.symm h
      | _ => simp [same] at h
    · intro d e h h'
      cases d with
      | filter g =>
        cases e with
        | filter k => exact f.regular_same.trans h h'
        | _ => simp [same] at h'
      | _ => simp [same] at h
  | union groups ih =>
    have hgroups : Regular (List.Forall₂ (List.Forall₂ fun c d => c.same d = true)) groups :=
      .forall₂ fun group hgroup => .forall₂ (ih group hgroup)
    constructor
    · intro d h
      cases d with
      | union groups' =>
        rw [same, sameGroups_iff] at h ⊢
        exact hgroups.symm h
      | _ => simp [same] at h
    · intro d e h h'
      cases d with
      | union groups' =>
        cases e with
        | union groups'' =>
          rw [same, sameGroups_iff] at h h' ⊢
          exact hgroups.trans h h'
        | _ => simp [same] at h'
      | _ => simp [same] at h
  | _ =>
    constructor
    · intro d h
      cases d <;> simp_all [same]
    · intro d e h h'
      cases d <;> cases e <;> simp_all [same]

end Clause

theorem Pattern.regular_same (p : Pattern) : Regular (fun p q => Pattern.same p q = true) p :=
  (Regular.forall₂ fun clause _ => clause.regular_same).congr fun _ _ => Clause.sameAll_iff.symm

namespace Condition

theorem sameAll_iff {cs ds : List Condition} :
    sameAll cs ds = true ↔ List.Forall₂ (fun c d => c.same d = true) cs ds := by
  induction cs generalizing ds with
  | nil => cases ds <;> simp [sameAll]
  | cons c cs ih => cases ds <;> simp [sameAll, ih]

theorem regular_sameForm {form : Form Condition}
    (ih : ∀ b ∈ form.branches, Regular (fun c d : Condition => c.same d = true) b) :
    Regular (fun f g => sameForm f g = true) form where
  symm := by
    intro g h
    cases form <;> cases g <;> simp only [sameForm, Bool.false_eq_true, Bool.and_eq_true,
      decide_eq_true_eq] at h ⊢
    · exact Pattern.regular_same _ |>.symm h
    · exact Filter.regular_same _ |>.symm h
    · exact ⟨h.1.symm, (Pattern.regular_same _).symm h.2⟩
    · rw [sameAll_iff] at h ⊢
      exact (Regular.forall₂ ih).symm h
  trans := by
    intro g k h h'
    cases form <;> cases g <;> simp only [sameForm, Bool.false_eq_true] at h <;>
      cases k <;> simp only [sameForm, Bool.false_eq_true, Bool.and_eq_true,
        decide_eq_true_eq] at h h' ⊢
    · exact (Pattern.regular_same _).trans h h'
    · exact (Filter.regular_same _).trans h h'
    · exact ⟨h.1.trans h'.1, (Pattern.regular_same _).trans h.2 h'.2⟩
    · rw [sameAll_iff] at h h' ⊢
      exact (Regular.forall₂ ih).trans h h'

theorem sameAttachments_iff {a b : Attachments Condition} :
    sameAttachments a b = true ↔ a.vocabularies = b.vocabularies ∧
      List.Forall₂ (fun c d : Condition => c.same d = true) a.weak b.weak ∧
      a.sortVariables = b.sortVariables ∧ a.safe = b.safe := by
  obtain ⟨vocabularies, weak, sorts, safe⟩ := a
  obtain ⟨vocabularies', weak', sorts', safe'⟩ := b
  simp [sameAttachments, sameAll_iff, and_assoc]

theorem regular_sameAttachments {a : Attachments Condition}
    (ih : ∀ w ∈ a.weak, Regular (fun c d : Condition => c.same d = true) w) :
    Regular (fun a b => sameAttachments a b = true) a where
  symm := by
    intro b h
    rw [sameAttachments_iff] at h ⊢
    obtain ⟨hvocabularies, hweak, hsorts, hsafe⟩ := h
    exact ⟨hvocabularies.symm, (Regular.forall₂ ih).symm hweak, hsorts.symm, hsafe.symm⟩
  trans := by
    intro b d h h'
    rw [sameAttachments_iff] at h h' ⊢
    obtain ⟨hvocabularies, hweak, hsorts, hsafe⟩ := h
    obtain ⟨hvocabularies', hweak', hsorts', hsafe'⟩ := h'
    exact ⟨hvocabularies.trans hvocabularies', (Regular.forall₂ ih).trans hweak hweak',
      hsorts.trans hsorts', hsafe.trans hsafe'⟩

theorem regular_same (c : Condition) : Regular (fun c d : Condition => c.same d = true) c := by
  induction c using nested_induction with
  | node form a ihbranches ihweak =>
    have hform := regular_sameForm ihbranches
    have hattachments := regular_sameAttachments ihweak
    constructor
    · rintro ⟨form', a'⟩ h
      simp only [same, Bool.and_eq_true] at h ⊢
      exact ⟨hform.symm h.1, hattachments.symm h.2⟩
    · rintro ⟨form', a'⟩ ⟨form'', a''⟩ h h'
      simp only [same, Bool.and_eq_true] at h h' ⊢
      exact ⟨hform.trans h.1 h'.1, hattachments.trans h.2 h'.2⟩

-- Conditions are not always equal to themselves, for want of a number that is none, but equality
-- can be turned round and followed.
instance : PartialEquivBEq Condition where
  symm h := (regular_same _).symm h
  trans h h' := (regular_same _).trans h h'

end Condition

end WikiQuery
