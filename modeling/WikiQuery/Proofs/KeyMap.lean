import WikiQuery.SortKey

namespace WikiQuery

namespace KeyMap

variable {α : Type}

theorem lookup_cons_eq_ite (k key : String) (value : α) (l : List (String × α)) :
    ((key, value) :: l).lookup k = if k = key then some value else l.lookup k := by
  by_cases h : k = key
  · simp [h]
  · simp [List.lookup_cons, beq_false_of_ne h, h]

theorem lookup_eq_none_of_lt {l : List (String × α)} {key : String} (h : ∀ e ∈ l, key < e.1) :
    l.lookup key = none := by
  apply List.lookup_eq_none_iff.mpr
  intro e he
  have hne : key ≠ e.1 := by
    intro heq
    have hlt := h e he
    rw [← heq] at hlt
    exact String.lt_irrefl key hlt
  simpa using hne

theorem lookup_put (keep : Bool) (key : String) (value : α) {l : List (String × α)}
    (h : l.Pairwise fun a b => a.1 < b.1) (k : String) :
    (put keep key value l).lookup k =
      if k = key then some (if keep then (l.lookup key).getD value else value)
      else l.lookup k := by
  induction l with
  | nil => cases keep <;> simp [put, lookup_cons_eq_ite]
  | cons head rest ih =>
    obtain ⟨k', v⟩ := head
    obtain ⟨hhead, hrest⟩ := List.pairwise_cons.mp h
    rw [put]
    by_cases hlt : key < k'
    · -- the entry comes before all others, so that none of them has its key
      have hnone : ((k', v) :: rest).lookup key = none := by
        refine lookup_eq_none_of_lt (List.forall_mem_cons.mpr ⟨hlt, ?_⟩)
        intro e he
        exact String.lt_trans hlt (hhead e he)
      rw [if_pos hlt, lookup_cons_eq_ite, hnone]
      cases keep <;> simp
    rw [if_neg hlt]
    by_cases hgt : k' < key
    · have hne : key ≠ k' := by
        rintro rfl
        exact String.lt_irrefl key hgt
      rw [if_pos hgt, lookup_cons_eq_ite, lookup_cons_eq_ite, lookup_cons_eq_ite, ih hrest,
        if_neg hne]
      by_cases hk : k = key
      · simp [hk, hne]
      · simp [hk]
    · have hkey : key = k' := String.le_antisymm (String.not_lt.mp hgt) (String.not_lt.mp hlt)
      subst hkey
      rw [if_neg hgt]
      by_cases hk : k = key <;> cases keep <;> simp [lookup_cons_eq_ite, hk]

-- An entry whose key comes after all others is put at the end.
theorem put_of_forall_lt {keep : Bool} {key : String} {value : α} {l : List (String × α)}
    (h : ∀ e ∈ l, e.1 < key) : put keep key value l = l ++ [(key, value)] := by
  induction l with
  | nil => rfl
  | cons e rest ih =>
    obtain ⟨he, hrest⟩ := List.forall_mem_cons.mp h
    have hnot : ¬ key < e.1 := fun hlt => String.lt_irrefl _ (String.lt_trans he hlt)
    rw [put]
    simp only [he, hnot, ite_true, ite_false, ih hrest, List.cons_append]

theorem entries_foldl_insert (m : KeyMap α) (l : List (String × α))
    (h : (m.entries ++ l).Pairwise fun a b => a.1 < b.1) :
    (l.foldl (fun m e => m.insert e.1 e.2) m).entries = m.entries ++ l := by
  induction l generalizing m with
  | nil => simp
  | cons e rest ih =>
    have hlt : ∀ entry ∈ m.entries, entry.1 < e.1 := by
      intro entry hentry
      exact (List.pairwise_append.mp h).2.2 entry hentry e (List.mem_cons_self ..)
    have hinsert : (m.insert e.1 e.2).entries = m.entries ++ [e] := put_of_forall_lt hlt
    rw [List.foldl_cons, ih, hinsert, List.append_assoc, List.singleton_append]
    rw [hinsert, List.append_assoc]
    exact h

-- A map is read again from its entries.
theorem ofList_entries (m : KeyMap α) : ofList m.entries = m := by
  have hentries : (ofList m.entries).entries = m.entries :=
    entries_foldl_insert ∅ m.entries m.sorted
  cases m
  rw [KeyMap.mk.injEq]
  exact hentries

variable (m n : KeyMap α) (key : String) (value : α)

@[simp] theorem get?_empty (k : String) : (∅ : KeyMap α).get? k = none := rfl

theorem get?_insert (k : String) :
    (m.insert key value).get? k = if k = key then some value else m.get? k :=
  lookup_put false key value m.sorted k

-- A value that a key has already stands before the new one.
theorem get?_insertNew (k : String) :
    (m.insertNew key value).get? k = (m.get? k).or (if k = key then some value else none) := by
  have hput := lookup_put true key value m.sorted k
  have hget : (m.insertNew key value).get? k = _ := hput
  rw [hget]
  unfold get?
  by_cases hk : k = key
  · subst hk
    cases m.entries.lookup k <;> simp
  · simp [hk]

theorem get?_union (k : String) : (m.union n).get? k = (m.get? k).or (n.get? k) := by
  have hfold : ∀ (l : List (String × α)) (m : KeyMap α),
      (l.foldl (fun m e => m.insertNew e.1 e.2) m).get? k = (m.get? k).or (l.lookup k) := by
    intro l
    induction l with
    | nil => intro m; simp
    | cons e rest ih =>
      intro m
      rw [List.foldl_cons, ih, get?_insertNew, lookup_cons_eq_ite, Option.or_assoc]
      congr 1
      by_cases hk : k = e.1 <;> simp [hk]
  exact hfold n.entries m

variable {m n key value} {k : String}

@[simp] theorem contains_empty : (∅ : KeyMap α).contains k = false := rfl

theorem eq_empty_of_contains (h : ∀ k, m.contains k = false) : m = ∅ := by
  obtain ⟨entries, sorted⟩ := m
  cases entries with
  | nil => rfl
  | cons e rest =>
    have hmem := h e.1
    simp [contains, get?] at hmem

theorem contains_insert :
    (m.insert key value).contains k = true ↔ k = key ∨ m.contains k = true := by
  unfold contains
  rw [get?_insert]
  by_cases hk : k = key <;> simp [hk]

theorem contains_insertNew :
    (m.insertNew key value).contains k = true ↔ k = key ∨ m.contains k = true := by
  unfold contains
  rw [get?_insertNew]
  by_cases hk : k = key <;> simp [hk]

theorem contains_union :
    (m.union n).contains k = true ↔ m.contains k = true ∨ n.contains k = true := by
  unfold contains
  rw [get?_union, Option.isSome_or, Bool.or_eq_true]

end KeyMap

-- The sort keys of a query are those that are requested.
theorem SortKeys.contains_ofRequests {sorts : List RequestedSort} {key : String} :
    (SortKeys.ofRequests sorts).contains key = true ↔ ∃ sort ∈ sorts, sort.key = key := by
  have hfold : ∀ (sorts : List RequestedSort) (keys : SortKeys),
      (sorts.foldl (fun keys sort => keys.insertNew sort.key sort.direction) keys).contains key =
          true ↔ keys.contains key = true ∨ ∃ sort ∈ sorts, sort.key = key := by
    intro sorts
    induction sorts with
    | nil => simp
    | cons sort rest ih =>
      intro keys
      rw [List.foldl_cons, ih, KeyMap.contains_insertNew, @eq_comm _ key, or_assoc, or_left_comm]
      simp
  rw [ofRequests, hfold]
  simp

end WikiQuery
