import Mathlib.Data.List.Induction
import Mathlib.Data.List.Sort
import WikiQuery.Proofs.Condition.Numbers
import WikiQuery.Proofs.KeyMap

namespace WikiQuery

namespace KeyMap

variable {α : Type}

theorem mem_iff_lookup {l : List (String × α)} (h : l.Pairwise fun a b => a.1 < b.1)
    {e : String × α} : e ∈ l ↔ l.lookup e.1 = some e.2 := by
  induction l with
  | nil => simp
  | cons head rest ih =>
    obtain ⟨hhead, hrest⟩ := List.pairwise_cons.mp h
    rw [lookup_cons_eq_ite, List.mem_cons]
    by_cases hkey : e.1 = head.1
    · -- behind the head there is no second entry with its key
      have hnot : e ∉ rest := by
        intro hmem
        have hlt := hhead e hmem
        rw [hkey] at hlt
        exact String.lt_irrefl _ hlt
      rw [if_pos hkey, or_iff_left hnot, Option.some.injEq, Prod.ext_iff]
      constructor
      · exact fun heq => heq.2.symm
      · exact fun heq => ⟨hkey, heq.symm⟩
    · have hne : e ≠ head := by
        rintro rfl
        exact hkey rfl
      rw [if_neg hkey, or_iff_right hne, ih hrest]

-- Entries in the order of their keys are settled by which entries they are.
theorem eq_of_mem_iff {l l' : List (String × α)} (h : l.Pairwise fun a b => a.1 < b.1)
    (h' : l'.Pairwise fun a b => a.1 < b.1) (hmem : ∀ e, e ∈ l ↔ e ∈ l') : l = l' := by
  have hirrefl : Std.Irrefl fun a b : String × α => a.1 < b.1 := ⟨fun a => String.lt_irrefl a.1⟩
  have hantisymm : Std.Antisymm fun a b : String × α => a.1 < b.1 :=
    ⟨fun a b hab hba => absurd (String.lt_trans hab hba) (String.lt_irrefl a.1)⟩
  exact h.eq_of_mem_iff h' hmem

variable {m n k : KeyMap α}

theorem mem_entries {e : String × α} : e ∈ m.entries ↔ m.get? e.1 = some e.2 :=
  mem_iff_lookup m.sorted

theorem eq_of_get? (h : ∀ key, m.get? key = n.get? key) : m = n := by
  have hentries : m.entries = n.entries := by
    apply eq_of_mem_iff m.sorted n.sorted
    intro e
    rw [mem_entries, mem_entries, h]
  obtain ⟨entries, sorted⟩ := m
  cases hentries
  rfl

theorem union_assoc : (m.union n).union k = m.union (n.union k) := by
  apply eq_of_get?
  intro key
  simp only [get?_union, Option.or_assoc]

theorem union_self : m.union m = m := by
  apply eq_of_get?
  intro key
  rw [get?_union, Option.or_self]

-- One map goes into another one: its own entries stay as they are, and those entries of the other
-- one are put between them whose keys it does not have.
structure Extends (m n joined : KeyMap α) : Prop where
  kept : joined.entries.filter (fun e => m.contains e.1) = m.entries
  added : joined.entries.filter (fun e => !m.contains e.1) =
    n.entries.filter (fun e => !m.contains e.1)

theorem extends_union : m.Extends n (m.union n) where
  kept := by
    apply eq_of_mem_iff ((m.union n).sorted.filter _) m.sorted
    intro e
    rw [List.mem_filter, mem_entries, mem_entries, get?_union, contains]
    cases m.get? e.1 <;> simp
  added := by
    apply eq_of_mem_iff ((m.union n).sorted.filter _) (n.sorted.filter _)
    intro e
    rw [List.mem_filter, List.mem_filter, mem_entries, mem_entries, get?_union, contains]
    cases m.get? e.1 <;> simp

end KeyMap

namespace Attachments

section Joined

variable {γ : Type} [BEq γ] {kept added more : List γ} {w : γ}

-- Weak conditions with those of others behind them, of which each is added unless it is there.
def joined (kept added : List γ) : List γ :=
  added.foldl (fun weak w => if weak.contains w then weak else weak ++ [w]) kept

theorem joined_concat : joined kept (added ++ [w]) =
    if (joined kept added).contains w then joined kept added else joined kept added ++ [w] := by
  rw [joined, List.foldl_append]
  rfl

-- What is added: what is not kept already, each once, in the order in which it comes.
theorem joined_eq_append :
    joined kept added = kept ++ (added.filter fun w => !kept.contains w).eraseDups := by
  induction added generalizing kept with
  | nil => simp [joined]
  | cons x rest ih =>
    rw [joined, List.foldl_cons, ← joined, ih]
    by_cases hx : kept.contains x = true
    · rw [if_pos hx, List.filter_cons_of_neg (by simpa using hx)]
    · have hadded : (rest.filter fun w => !(kept ++ [x]).contains w) =
          (rest.filter fun w => !kept.contains w).filter fun w => !w == x := by
        rw [List.filter_filter]
        apply List.filter_congr
        intro w _
        simp [Bool.and_comm]
      rw [if_neg hx, List.filter_cons_of_pos (by simpa using hx), List.eraseDups_cons, hadded,
        List.append_assoc, List.singleton_append]

variable [PartialEquivBEq γ]

theorem contains_joined :
    (joined kept added).contains w = (kept.contains w || added.contains w) := by
  induction added using List.reverseRecOn with
  | nil => simp [joined]
  | append_singleton rest x ih =>
    have hlast : (rest ++ [x]).contains w = (rest.contains w || w == x) := by simp
    rw [joined_concat, hlast, ← Bool.or_assoc, ← ih]
    by_cases hx : (joined kept rest).contains x = true
    · -- what equals an element that is there already is there as well
      have hthere : (w == x) = true → (joined kept rest).contains w = true := by
        intro hwx
        obtain ⟨y, hy, hxy⟩ := List.contains_iff_exists_mem_beq.mp hx
        exact List.contains_iff_exists_mem_beq.mpr ⟨y, hy, BEq.trans hwx hxy⟩
      rw [if_pos hx]
      cases hwx : w == x with
      | false => rw [Bool.or_false]
      | true => rw [hthere hwx, Bool.true_or]
    · rw [if_neg hx]
      simp

theorem joined_assoc : joined (joined kept added) more = joined kept (joined added more) := by
  induction more using List.reverseRecOn with
  | nil => rfl
  | append_singleton rest w ih =>
    have hmore : joined added (rest ++ [w]) = if (joined added rest).contains w then
        joined added rest else joined added rest ++ [w] := joined_concat
    rw [joined_concat, hmore, ih]
    by_cases hw : (joined added rest).contains w = true
    · have hall : (joined kept (joined added rest)).contains w = true := by
        rw [contains_joined, hw, Bool.or_true]
      rw [if_pos hw, if_pos hall]
    · rw [if_neg hw, joined_concat]

-- Only elements that equal nothing, themselves included, are added to a list that has them.
theorem joined_self_iff : joined kept kept = kept ↔ ∀ w ∈ kept, (w == w) = true := by
  have hcontains : ∀ w ∈ kept, (kept.contains w = true ↔ (w == w) = true) := by
    intro w hw
    rw [List.contains_iff_exists_mem_beq]
    constructor
    · rintro ⟨x, -, hx⟩
      exact BEq.trans hx (BEq.symm hx)
    · intro hself
      exact ⟨w, hw, hself⟩
  rw [joined_eq_append, List.append_right_eq_self]
  constructor
  · intro hnil w hw
    by_contra hne
    cases hfilter : kept.filter fun w => !kept.contains w with
    | nil =>
      have hthere := List.filter_eq_nil_iff.mp hfilter w hw
      rw [Bool.not_eq_true', Bool.not_eq_false] at hthere
      exact hne ((hcontains w hw).mp hthere)
    | cons x rest =>
      rw [hfilter, List.eraseDups_cons] at hnil
      cases hnil
  · intro hself
    have hfilter : (kept.filter fun w => !kept.contains w) = [] := by
      apply List.filter_eq_nil_iff.mpr
      intro w hw
      simp [(hcontains w hw).mpr (hself w hw)]
    rw [hfilter, List.eraseDups_nil]

end Joined

variable {a b c : Attachments Condition}

theorem merge_empty {γ : Type} [BEq γ] (a : Attachments γ) : a.merge {} = a := by
  obtain ⟨vocabularies, weak, sortVariables, safe⟩ := a
  unfold merge
  rw [Bool.or_false]
  rfl

theorem merge_assoc : (a.merge b).merge c = a.merge (b.merge c) := by
  have hweak : joined (joined a.weak b.weak) c.weak = joined a.weak (joined b.weak c.weak) :=
    joined_assoc
  simp only [merge, KeyMap.union_assoc, Bool.or_assoc, mk.injEq, true_and, and_true]
  exact hweak

theorem merge_self_iff :
    a.merge a = a ↔ ∀ w ∈ a.weak, ∀ n ∈ w.numbers, n.isNaN = false := by
  have hself : ∀ w : Condition, (w == w) = true ↔ ∀ n ∈ w.numbers, n.isNaN = false :=
    fun _ => Condition.same_self_iff
  have hjoined : joined a.weak a.weak = a.weak ↔ _ := joined_self_iff
  simp only [hself] at hjoined
  rw [← hjoined]
  obtain ⟨vocabularies, weak, sortVariables, safe⟩ := a
  simp only [merge, KeyMap.union_self, Bool.or_self, mk.injEq, true_and, and_true]
  exact Iff.rfl

-- Attachments go into others in order. They can be brought together in any grouping, none or equal
-- ones change nothing, as long as weak conditions equal themselves, and of others just those are
-- added that are new: by their keys, or by their values where they are weak conditions.
theorem merge_orderedUnion :
    (∀ a b c : Attachments Condition, (a.merge b).merge c = a.merge (b.merge c)) ∧
    (∀ a : Attachments Condition, a.merge {} = a ∧
      (a.merge a = a ↔ ∀ w ∈ a.weak, ∀ n ∈ w.numbers, n.isNaN = false)) ∧
    ∀ a b : Attachments Condition,
      a.vocabularies.Extends b.vocabularies (a.merge b).vocabularies ∧
      (a.merge b).weak = a.weak ++ (b.weak.filter fun w => !a.weak.contains w).eraseDups ∧
      a.sortVariables.Extends b.sortVariables (a.merge b).sortVariables ∧
      (a.merge b).safe = (a.safe || b.safe) := by
  refine ⟨fun _ _ _ => merge_assoc, fun a => ⟨a.merge_empty, merge_self_iff⟩, ?_⟩
  intro a b
  exact ⟨KeyMap.extends_union, joined_eq_append, KeyMap.extends_union, rfl⟩

end Attachments

end WikiQuery
