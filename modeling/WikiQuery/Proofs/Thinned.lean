namespace WikiQuery

-- The second list is the first one without some elements that have a property.
inductive Thinned {α : Type} (P : α → Prop) : List α → List α → Prop where
  | nil : Thinned P [] []
  | keep {as kept : List α} (a : α) : Thinned P as kept → Thinned P (a :: as) (a :: kept)
  | drop {as kept : List α} {a : α} : P a → Thinned P as kept → Thinned P (a :: as) kept

namespace Thinned

variable {α β : Type} {P : α → Prop} {as bs kept : List α}

theorem subset (h : Thinned P as kept) : kept ⊆ as := by
  induction h with
  | nil => exact List.Subset.refl _
  | keep a _ ih => exact List.cons_subset_cons a ih
  | drop _ _ ih => exact List.subset_cons_of_subset _ ih

theorem length_le (h : Thinned P as kept) : kept.length ≤ as.length := by
  induction h with
  | nil => exact Nat.le_refl _
  | keep _ _ ih =>
    rw [List.length_cons, List.length_cons]
    omega
  | drop _ _ ih =>
    rw [List.length_cons]
    omega

theorem mem_iff {a : α} (ha : ¬ P a) (h : Thinned P as kept) : a ∈ as ↔ a ∈ kept := by
  induction h with
  | nil => rfl
  | keep first _ ih => rw [List.mem_cons, List.mem_cons, ih]
  | drop hdrop _ ih =>
    rw [List.mem_cons, ih, or_iff_right_of_imp]
    rintro rfl
    exact absurd hdrop ha

theorem map {g : α → β} {R : β → Prop} (h : ∀ a, P a → R (g a)) (hthin : Thinned P as kept) :
    Thinned R (as.map g) (kept.map g) := by
  induction hthin with
  | nil => exact .nil
  | keep a _ ih => exact .keep (g a) ih
  | drop ha _ ih => exact .drop (h _ ha) ih

theorem append {kept' : List α} (h : Thinned P as kept) (h' : Thinned P bs kept') :
    Thinned P (as ++ bs) (kept ++ kept') := by
  induction h with
  | nil => exact h'
  | keep a _ ih => exact .keep a ih
  | drop ha _ ih => exact .drop ha ih

-- An element that is not among those to be dropped divides what is kept as it divides the whole.
theorem exists_of_append {a : α} (ha : ¬ P a) (h : Thinned P (as ++ a :: bs) kept) :
    ∃ before after, kept = before ++ a :: after ∧ Thinned P as before ∧ Thinned P bs after := by
  induction as generalizing kept with
  | nil =>
    cases h with
    | keep _ hafter => exact ⟨[], _, rfl, .nil, hafter⟩
    | drop hdrop _ => exact absurd hdrop ha
  | cons first as ih =>
    cases h with
    | keep _ hrest =>
      obtain ⟨before, after, rfl, hbefore, hafter⟩ := ih hrest
      exact ⟨first :: before, after, rfl, .keep first hbefore, hafter⟩
    | drop hdrop hrest =>
      obtain ⟨before, after, rfl, hbefore, hafter⟩ := ih hrest
      exact ⟨before, after, rfl, .drop hdrop hbefore, hafter⟩

theorem filter_eq {p : α → Bool} (hneutral : ∀ a, P a → p a = false) (h : Thinned P as kept) :
    as.filter p = kept.filter p := by
  induction h with
  | nil => rfl
  | keep a _ ih => rw [List.filter_cons, List.filter_cons, ih]
  | drop ha _ ih => rw [List.filter_cons_of_neg (by simp [hneutral _ ha]), ih]

theorem foldlM_eq {step : β → α → Option β} (hneutral : ∀ b a, P a → step b a = some b)
    (h : Thinned P as kept) (b : β) : as.foldlM step b = kept.foldlM step b := by
  induction h generalizing b with
  | nil => rfl
  | keep a _ ih =>
    rw [List.foldlM_cons, List.foldlM_cons]
    exact congrArg (step b a >>= ·) (funext ih)
  | drop ha _ ih =>
    rw [List.foldlM_cons, hneutral b _ ha]
    exact ih b

end Thinned

end WikiQuery
