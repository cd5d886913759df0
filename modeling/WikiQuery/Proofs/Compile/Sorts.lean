import WikiQuery.Proofs.Compile.Weak
import WikiQuery.Proofs.Condition.Scope
import WikiQuery.Proofs.KeyMap

namespace WikiQuery

namespace Clause

-- The key of the property that a clause asks for a value of.
def key? : Clause → Option String
  | .triple _ p _ _ => some p.key
  | .hasValue _ p _ => some p.key
  | _ => none

-- The variable that a value of that property goes with: its own one, or else that of its subject.
def value? : Clause → Option Variable
  | .triple s p o _ => if p.inverse then s.variable? else o.variable?
  | .hasValue v _ _ => some v
  | _ => none

end Clause

namespace Condition

-- Some clause of the condition, at any depth, asks for values of a property and a variable goes
-- with them.
def Gives (c : Condition) (key : String) (v : Variable) : Prop :=
  ∃ clause ∈ c.atoms, clause.key? = some key ∧ clause.value? = some v

-- The variables by which a condition on a variable can be sorted under a key.
def Offers (c : Condition) (join : Variable) (target : Option SortTarget) (key : String)
    (v : Variable) : Prop :=
  (∃ t ∈ target, t.key = key ∧ v = join) ∨ c.Gives key v

theorem gives_congr {c d : Condition} (h : c.form = d.form) {key : String} {v : Variable} :
    c.Gives key v ↔ d.Gives key v := by
  unfold Gives
  rw [atoms_eq_of_form h]

theorem not_gives {c : Condition} (h : ∀ clause ∈ c.atoms, clause.key? = none) (key : String)
    (v : Variable) : ¬ c.Gives key v := by
  rintro ⟨clause, hclause, hkey, -⟩
  rw [h clause hclause] at hkey
  cases hkey

theorem gives_flatMap {c : Condition} {conditions : List Condition}
    (h : c.atoms = conditions.flatMap atoms) {key : String} {v : Variable} :
    c.Gives key v ↔ ∃ b ∈ conditions, b.Gives key v := by
  unfold Gives
  rw [h]
  constructor
  · rintro ⟨clause, hclause, hgives⟩
    obtain ⟨b, hb, hclause⟩ := List.mem_flatMap.mp hclause
    exact ⟨b, hb, clause, hclause, hgives⟩
  · rintro ⟨b, hb, clause, hclause, hgives⟩
    exact ⟨clause, List.mem_flatMap.mpr ⟨b, hb, hclause⟩, hgives⟩

end Condition

namespace Compiler

variable {c : Compiler} {keys : SortKeys} {join : Variable} {target : Option SortTarget}
  {datatype : Datatype} {condition : Condition}

-- The weak condition that binds what the page of a variable sorts by.
def sortBinding (c : Compiler) (v : Variable) : Condition :=
  .ofPattern [.sortKey v (v.withSuffix c.settings.sortSuffix)]

-- The variable that a variable is sorted by, and the weak conditions that this takes.
def sortVariable (c : Compiler) (v : Variable) (datatype : Datatype) : Variable :=
  if datatype.isPage then v.withSuffix c.settings.sortSuffix else v

def sortBindings (c : Compiler) (v : Variable) (datatype : Datatype) : List Condition :=
  if datatype.isPage then [c.sortBinding v] else []

theorem beq_sortBinding {v w : Variable} :
    (c.sortBinding v == c.sortBinding w) = true ↔ c.sortBinding v = c.sortBinding w := by
  have hsame : (c.sortBinding v == c.sortBinding w) =
      (c.sortBinding v).same (c.sortBinding w) := rfl
  rw [hsame]
  simp [sortBinding, Condition.ofPattern, Condition.same, Condition.sameForm,
    Condition.sameAttachments, Condition.sameAll, Pattern.same, Clause.sameAll, Clause.same]

-- A sort is either of no use, or it is recorded under a key that nothing was recorded under.
theorem attachSort_cases (c : Compiler) (keys : SortKeys) (join : Variable)
    (target : Option SortTarget) (datatype : Datatype) (h : condition.isNothing = false) :
    (c.attachSort keys join target datatype condition = condition ∧
      ∀ t ∈ target, keys.contains t.key = true →
        condition.attachments.sortVariables.contains t.key = true) ∨
    ∃ t, target = some t ∧ keys.contains t.key = true ∧
      condition.attachments.sortVariables.contains t.key = false ∧
      (c.attachSort keys join target datatype condition).attachments.weak =
        condition.attachments.weak ++ c.sortBindings join datatype ∧
      (c.attachSort keys join target datatype condition).attachments.sortVariables =
        condition.attachments.sortVariables.insert t.key (c.sortVariable join datatype) := by
  cases target with
  | none => exact .inl ⟨rfl, by simp⟩
  | some t =>
    cases hkey : keys.contains t.key with
    | false => exact .inl ⟨by simp [attachSort, hkey], by simp [hkey]⟩
    | true =>
      cases hrecorded : condition.attachments.sortVariables.contains t.key with
      | true => exact .inl ⟨by simp [attachSort, hrecorded], by simp [hrecorded]⟩
      | false =>
        refine .inr ⟨t, rfl, hkey, hrecorded, ?_⟩
        unfold attachSort sortVariable sortBindings sortBinding
        cases datatype.isPage <;> simp [h, hkey, hrecorded, Condition.withAttachments]

theorem attachSort_new (c : Compiler) (join : Variable) (datatype : Datatype) {t : SortTarget}
    (hcondition : condition.isNothing = false) (hkey : keys.contains t.key = true)
    (hnew : condition.attachments.sortVariables.contains t.key = false) :
    (c.attachSort keys join (some t) datatype condition).attachments.weak =
        condition.attachments.weak ++ c.sortBindings join datatype ∧
      (c.attachSort keys join (some t) datatype condition).attachments.sortVariables =
        condition.attachments.sortVariables.insert t.key (c.sortVariable join datatype) := by
  rcases c.attachSort_cases keys join (some t) datatype hcondition with
    ⟨-, hold⟩ | ⟨u, htarget, -, -, hadded⟩
  · rw [hold t rfl hkey] at hnew
    cases hnew
  · cases htarget
    exact hadded

-- What goes along with a condition agrees with the variables that are on offer for sorting: under
-- each key that is requested and has an offer one of them is recorded, by itself or by its sort
-- key, and sort keys are bound only for the sake of what is recorded.
structure Sorts (c : Compiler) (keys : SortKeys) (offers : String → Variable → Prop)
    (a : Attachments Condition) : Prop where
  recorded : ∀ key, a.sortVariables.contains key = true ↔
    keys.contains key = true ∧ ∃ v, offers key v
  bound : ∀ key x, a.sortVariables.get? key = some x → ∃ v, offers key v ∧
    (x = v ∨ x = v.withSuffix c.settings.sortSuffix ∧ c.sortBinding v ∈ a.weak)
  origin : ∀ w ∈ a.weak, ∃ key v, w = c.sortBinding v ∧ offers key v ∧
    a.sortVariables.contains key = true

namespace Sorts

variable {offers offers' : String → Variable → Prop} {a b : Attachments Condition}

theorem empty {a : Attachments Condition} (hweak : a.weak = []) (hsorts : a.sortVariables = ∅)
    (hoffers : ∀ key v, ¬ offers key v) : c.Sorts keys offers a where
  recorded := by simp [hsorts, hoffers]
  bound := by simp [hsorts]
  origin := by simp [hweak]

theorem congr (h : c.Sorts keys offers a) (hoffers : ∀ key v, offers key v ↔ offers' key v)
    (hweak : b.weak = a.weak) (hsorts : b.sortVariables = a.sortVariables) :
    c.Sorts keys offers' b := by
  have heq : offers = offers' := by
    funext key v
    exact propext (hoffers key v)
  subst heq
  refine ⟨?_, ?_, ?_⟩
  · rw [hsorts]
    exact h.recorded
  · rw [hsorts, hweak]
    exact h.bound
  · rw [hsorts, hweak]
    exact h.origin

-- What is on offer besides is of no use where something is recorded already.
theorem mono (h : c.Sorts keys offers a) (hoffers : ∀ key v, offers key v → offers' key v)
    (hold : ∀ key v, offers' key v → keys.contains key = true →
      a.sortVariables.contains key = true) : c.Sorts keys offers' a where
  recorded := by
    intro key
    constructor
    · intro hkey
      obtain ⟨hrequested, v, hv⟩ := (h.recorded key).mp hkey
      exact ⟨hrequested, v, hoffers key v hv⟩
    · rintro ⟨hrequested, v, hv⟩
      exact hold key v hv hrequested
  bound := by
    intro key x hx
    obtain ⟨v, hv, hbound⟩ := h.bound key x hx
    exact ⟨v, hoffers key v hv, hbound⟩
  origin := by
    intro w hw
    obtain ⟨key, v, hw, hv, hkey⟩ := h.origin w hw
    exact ⟨key, v, hw, hoffers key v hv, hkey⟩

theorem record {key : String} (h : c.Sorts keys offers a) (hkey : keys.contains key = true)
    (hweak : b.weak = a.weak ++ c.sortBindings join datatype)
    (hsorts : b.sortVariables = a.sortVariables.insert key (c.sortVariable join datatype)) :
    c.Sorts keys (fun k v => (key = k ∧ v = join) ∨ offers k v) b where
  recorded := by
    intro k
    rw [hsorts, KeyMap.contains_insert, h.recorded]
    constructor
    · rintro (rfl | ⟨hk, v, hv⟩)
      · exact ⟨hkey, join, .inl ⟨rfl, rfl⟩⟩
      · exact ⟨hk, v, .inr hv⟩
    · rintro ⟨hk, v, ⟨rfl, -⟩ | hv⟩
      · exact .inl rfl
      · exact .inr ⟨hk, v, hv⟩
  bound := by
    intro k x hx
    rw [hsorts, KeyMap.get?_insert] at hx
    rw [hweak]
    by_cases hk : k = key
    · rw [if_pos hk] at hx
      refine ⟨join, .inl ⟨hk.symm, rfl⟩, ?_⟩
      rw [← Option.some.inj hx]
      unfold sortVariable sortBindings
      cases datatype.isPage <;> simp
    · rw [if_neg hk] at hx
      obtain ⟨v, hv, hbound⟩ := h.bound k x hx
      exact ⟨v, .inr hv, hbound.imp id fun h => ⟨h.1, List.mem_append_left _ h.2⟩⟩
  origin := by
    intro w hw
    rw [hweak] at hw
    rw [hsorts]
    rcases List.mem_append.mp hw with hw | hw
    · obtain ⟨k, v, hw, hv, hk⟩ := h.origin w hw
      exact ⟨k, v, hw, .inr hv, KeyMap.contains_insert.mpr (.inr hk)⟩
    · have hbinding : w = c.sortBinding join := by
        unfold sortBindings at hw
        split at hw
        · exact List.mem_singleton.mp hw
        · cases hw
      exact ⟨key, join, hbinding, .inl ⟨rfl, rfl⟩, KeyMap.contains_insert.mpr (.inl rfl)⟩

theorem attachSort (h : c.Sorts keys offers condition.attachments)
    (hcondition : condition.isNothing = false) :
    c.Sorts keys (fun key v => (∃ t ∈ target, t.key = key ∧ v = join) ∨ offers key v)
      (c.attachSort keys join target datatype condition).attachments := by
  rcases c.attachSort_cases keys join target datatype hcondition with
    ⟨heq, hold⟩ | ⟨t, rfl, hrequested, -, hweak, hsorts⟩
  · rw [heq]
    refine h.mono (fun key v hv => .inr hv) ?_
    rintro key v (⟨t, ht, rfl, -⟩ | hv) hkey
    · exact hold t ht hkey
    · exact (h.recorded key).mpr ⟨hkey, v, hv⟩
  · exact (h.record hrequested hweak hsorts).congr (by simp) rfl rfl

theorem weak_merge (ha : c.Sorts keys offers a) (hb : c.Sorts keys offers' b) :
    (∀ w, w ∈ (a.merge b).weak ↔ w ∈ a.weak ∨ w ∈ b.weak) ∧
    (a.weak.Nodup → (a.merge b).weak.Nodup) := by
  have hbindings : ∀ w ∈ a.weak ++ b.weak, ∃ v, w = c.sortBinding v := by
    intro w hw
    rcases List.mem_append.mp hw with hw | hw
    · obtain ⟨-, v, hv, -⟩ := ha.origin w hw
      exact ⟨v, hv⟩
    · obtain ⟨-, v, hv, -⟩ := hb.origin w hw
      exact ⟨v, hv⟩
  apply Attachments.weak_merge
  intro x hx y hy
  obtain ⟨v, rfl⟩ := hbindings x hx
  obtain ⟨w, rfl⟩ := hbindings y hy
  exact beq_sortBinding

theorem merge (ha : c.Sorts keys offers a) (hb : c.Sorts keys offers' b) :
    c.Sorts keys (fun key v => offers key v ∨ offers' key v) (a.merge b) := by
  have hweak := (ha.weak_merge hb).1
  refine ⟨?_, ?_, ?_⟩
  · intro key
    refine KeyMap.contains_union.trans ?_
    rw [ha.recorded, hb.recorded, ← and_or_left, exists_or]
  · intro key x hx
    have hget : (a.sortVariables.get? key).or (b.sortVariables.get? key) = some x :=
      (KeyMap.get?_union ..).symm.trans hx
    rcases Option.or_eq_some_iff.mp hget with hx | ⟨-, hx⟩
    · obtain ⟨v, hv, hbound⟩ := ha.bound key x hx
      exact ⟨v, .inl hv, hbound.imp id fun h => ⟨h.1, (hweak _).mpr (.inl h.2)⟩⟩
    · obtain ⟨v, hv, hbound⟩ := hb.bound key x hx
      exact ⟨v, .inr hv, hbound.imp id fun h => ⟨h.1, (hweak _).mpr (.inr h.2)⟩⟩
  · intro w hw
    rcases (hweak w).mp hw with hw | hw
    · obtain ⟨key, v, hw, hv, hkey⟩ := ha.origin w hw
      exact ⟨key, v, hw, .inl hv, KeyMap.contains_union.mpr (.inl hkey)⟩
    · obtain ⟨key, v, hw, hv, hkey⟩ := hb.origin w hw
      exact ⟨key, v, hw, .inr hv, KeyMap.contains_union.mpr (.inr hkey)⟩

theorem foldl (ha : c.Sorts keys offers a) {conditions : List Condition}
    {offered : Condition → String → Variable → Prop}
    (h : ∀ b ∈ conditions, c.Sorts keys (offered b) b.attachments) :
    c.Sorts keys (fun key v => offers key v ∨ ∃ b ∈ conditions, offered b key v)
      (conditions.foldl (fun a b => a.merge b.attachments) a) := by
  induction conditions generalizing a offers with
  | nil => exact ha.congr (by simp) rfl rfl
  | cons b rest ih =>
    obtain ⟨hb, hrest⟩ := List.forall_mem_cons.mp h
    exact (ih (ha.merge hb) hrest).congr (by simp [or_assoc]) rfl rfl

theorem nodup_foldl (ha : c.Sorts keys offers a) {conditions : List Condition}
    {offered : Condition → String → Variable → Prop}
    (h : ∀ b ∈ conditions, c.Sorts keys (offered b) b.attachments) (hweak : a.weak.Nodup) :
    (conditions.foldl (fun a b => a.merge b.attachments) a).weak.Nodup := by
  induction conditions generalizing a offers with
  | nil => exact hweak
  | cons b rest ih =>
    obtain ⟨hb, hrest⟩ := List.forall_mem_cons.mp h
    exact ih (ha.merge hb) hrest ((ha.weak_merge hb).2 hweak)

end Sorts

end Compiler

end WikiQuery
