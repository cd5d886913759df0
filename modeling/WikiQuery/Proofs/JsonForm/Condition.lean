import WikiQuery.JsonForm.Condition
import WikiQuery.Proofs.Condition.Atoms
import WikiQuery.Proofs.JsonForm.Pattern

namespace WikiQuery

namespace Json

-- A member that is left out under a condition.
theorem lookupLast_ite {p : Prop} [Decidable p] (key k : String) (v : Json) :
    lookupLast key (if p then [] else [(k, v)]) =
      if k = key then (if p then none else some v) else none := by
  by_cases hp : p <;> simp [hp, lookupLast]

end Json

namespace KeyMap

variable {α : Type} {m : KeyMap α}

theorem eq_empty_of_isEmpty (h : m.isEmpty = true) : m = ∅ := by
  obtain ⟨entries, sorted⟩ := m
  obtain rfl := List.isEmpty_iff.mp h
  rfl

-- A map that is left out where it is empty is read as an empty map.
theorem fieldOr_of_field? {j : Json} {key : String} {write : α → Json} {read : Json → Option α}
    (hfield : j.field? key = if m.isEmpty then none else some (m.toJson write))
    (h : ∀ x, read (write x) = some x) :
    j.fieldOr key ∅ (KeyMap.ofJson? read) = some m := by
  rw [Json.fieldOr, hfield]
  by_cases hm : m.isEmpty
  · rw [if_pos hm, eq_empty_of_isEmpty hm]
  · rw [if_neg hm]
    exact KeyMap.ofJson?_toJson h m

end KeyMap

-- The numbers in a form, other than those of its branches, are finite.
def Form.Finite {γ : Type} : Form γ → Prop
  | .pattern p => p.Finite
  | .filter f => f.Finite
  | .singleton _ p => p.Finite
  | _ => True

namespace Condition

-- All numbers in a condition are finite, in its branches and in what goes along with it as well.
inductive Finite : Condition → Prop where
  | mk {form : Form Condition} {a : Attachments Condition} : form.Finite →
    (∀ branch ∈ form.branches, Finite branch) → (∀ w ∈ a.weak, Finite w) → Finite ⟨form, a⟩

theorem listToJson_eq (conditions : List Condition) :
    listToJson conditions = conditions.map toJson := by
  induction conditions with
  | nil => rw [listToJson, List.map_nil]
  | cons condition rest ih => rw [listToJson, ih, List.map_cons]

theorem listOfJson?_eq (items : List Json) : listOfJson? items = items.mapM ofJson? := by
  induction items with
  | nil => rw [listOfJson?, List.mapM_nil]
  | cons item rest ih => rw [listOfJson?, ih, List.mapM_cons]

variable {form : Form Condition} {a : Attachments Condition} {key : String}

-- The members of a form and those of what goes along with it have different names.
def formKeys : List String := ["kind", "pattern", "filter", "value", "branches"]

def attachmentKeys : List String := ["namespaces", "weak", "order_variables", "safe"]

theorem mem_formKeys {member : String × Json} (h : member ∈ formMembers form) :
    member.1 ∈ formKeys := by
  cases form <;> simp [formMembers] at h <;> rcases h with rfl | rfl | rfl <;> simp [formKeys]

theorem attachmentMembers_eq : attachmentMembers a =
    mapMember "namespaces" a.vocabularies .text ++
      (if a.weak.isEmpty then [] else [("weak", .array (a.weak.map toJson))]) ++
      mapMember "order_variables" a.sortVariables Variable.toJson ++ [("safe", .bool a.safe)] := by
  cases a
  rw [attachmentMembers, listToJson_eq]

theorem mem_attachmentKeys {member : String × Json} (h : member ∈ attachmentMembers a) :
    member.1 ∈ attachmentKeys := by
  simp only [attachmentMembers_eq, mapMember, List.mem_append, List.mem_ite_nil_left,
    List.mem_singleton] at h
  obtain ((⟨-, rfl⟩ | ⟨-, rfl⟩) | ⟨-, rfl⟩) | rfl := h <;> simp [attachmentKeys]

theorem field?_of_form (h : key ∉ attachmentKeys) :
    (toJson ⟨form, a⟩).field? key = Json.lookupLast key (formMembers form) := by
  have hnone : Json.lookupLast key (attachmentMembers a) = none := by
    apply Json.lookupLast_eq_none
    intro hkey
    obtain ⟨member, hmember, rfl⟩ := List.mem_map.mp hkey
    exact h (mem_attachmentKeys hmember)
  rw [toJson, Json.field?_object, Json.lookupLast_append, hnone, Option.none_or]

theorem field?_of_attachments (h : key ∉ formKeys) :
    (toJson ⟨form, a⟩).field? key = Json.lookupLast key (attachmentMembers a) := by
  have hnone : Json.lookupLast key (formMembers form) = none := by
    apply Json.lookupLast_eq_none
    intro hkey
    obtain ⟨member, hmember, rfl⟩ := List.mem_map.mp hkey
    exact h (mem_formKeys hmember)
  rw [toJson, Json.field?_object, Json.lookupLast_append, hnone, Option.or_none]

theorem field?_namespaces : (toJson ⟨form, a⟩).field? "namespaces" =
    if a.vocabularies.isEmpty then none else some (a.vocabularies.toJson .text) := by
  rw [field?_of_attachments (by decide)]
  simp [attachmentMembers_eq, mapMember, Json.lookupLast_append, Json.lookupLast_ite]

theorem field?_weak : (toJson ⟨form, a⟩).field? "weak" =
    if a.weak.isEmpty then none else some (.array (a.weak.map toJson)) := by
  rw [field?_of_attachments (by decide)]
  simp [attachmentMembers_eq, mapMember, Json.lookupLast_append, Json.lookupLast_ite]

theorem field?_order_variables : (toJson ⟨form, a⟩).field? "order_variables" =
    if a.sortVariables.isEmpty then none else some (a.sortVariables.toJson Variable.toJson) := by
  rw [field?_of_attachments (by decide)]
  simp [attachmentMembers_eq, mapMember, Json.lookupLast_append, Json.lookupLast_ite]

theorem field?_safe : (toJson ⟨form, a⟩).field? "safe" = some (.bool a.safe) := by
  rw [field?_of_attachments (by decide)]
  simp [attachmentMembers_eq, mapMember, Json.lookupLast_append, Json.lookupLast_ite]

theorem attachmentsOfJson?_toJson (hweak : ∀ w ∈ a.weak, ofJson? w.toJson = some w) :
    attachmentsOfJson? (toJson ⟨form, a⟩) = some a := by
  have hvocabularies : (toJson ⟨form, a⟩).fieldOr "namespaces" ∅ (KeyMap.ofJson? Json.text?) =
      some a.vocabularies := KeyMap.fieldOr_of_field? field?_namespaces fun _ => rfl
  have hsort : (toJson ⟨form, a⟩).fieldOr "order_variables" ∅ (KeyMap.ofJson? Variable.ofJson?) =
      some a.sortVariables :=
    KeyMap.fieldOr_of_field? field?_order_variables Variable.ofJson?_toJson
  have hlist : listOfJson? (a.weak.map toJson) = some a.weak := by
    rw [listOfJson?_eq]
    exact Json.mapM_map hweak
  rw [attachmentsOfJson?, hvocabularies, hsort, Json.fieldOr, field?_safe]
  dsimp only
  split
  · rename_i hfield
    rw [field?_weak] at hfield
    have hnil : a.weak = [] := by simpa using hfield
    rw [← hnil]
    rfl
  · rename_i weak hfield
    rw [field?_weak] at hfield
    obtain ⟨-, harray⟩ := Option.ite_none_left_eq_some.mp hfield
    cases harray
    rw [hlist]
    rfl
  · rename_i v hnot hfield
    rw [field?_weak] at hfield
    obtain ⟨-, harray⟩ := Option.ite_none_left_eq_some.mp hfield
    cases harray
    exact absurd rfl (hnot _)

theorem formOfJson?_toJson (hform : form.Finite)
    (hbranches : ∀ branch ∈ form.branches, ofJson? branch.toJson = some branch) :
    formOfJson? (toJson ⟨form, a⟩) = some form := by
  have hkind : (toJson ⟨form, a⟩).required? "kind" (Json.kind? true formKinds) =
      (Json.object (formMembers form)).required? "kind" (Json.kind? true formKinds) := by
    rw [Json.required?, field?_of_form (by decide)]
    rfl
  cases form with
  | everything =>
    rw [formOfJson?, hkind]
    rfl
  | nothing =>
    rw [formOfJson?, hkind]
    rfl
  | pattern p =>
    have hpattern : (toJson ⟨.pattern p, a⟩).required? "pattern" (Pattern.ofJson? true) =
        some p := by
      rw [Json.required?_of_some (field?_of_form (by decide)), Pattern.ofJson?_toJson hform]
    rw [formOfJson?, hkind, hpattern]
    rfl
  | filter f =>
    have hfilter : (toJson ⟨.filter f, a⟩).required? "filter" (Filter.ofJson? true) = some f := by
      rw [Json.required?_of_some (field?_of_form (by decide)), Filter.ofJson?_toJson hform]
    rw [formOfJson?, hkind, hfilter]
    rfl
  | singleton r p =>
    have hpattern : (toJson ⟨.singleton r p, a⟩).required? "pattern" (Pattern.ofJson? true) =
        some p := by
      rw [Json.required?_of_some (field?_of_form (by decide)), Pattern.ofJson?_toJson hform]
    have hvalue : (toJson ⟨.singleton r p, a⟩).required? "value" (Resource.ofJson? true) =
        some r := by
      rw [Json.required?_of_some (field?_of_form (by decide)), Resource.ofJson?_toJson]
    rw [formOfJson?, hkind, hpattern, hvalue]
    rfl
  | alternatives branches =>
    have hlist : listOfJson? (branches.map toJson) = some branches := by
      rw [listOfJson?_eq]
      exact Json.mapM_map hbranches
    have hitems : (toJson ⟨.alternatives branches, a⟩).required? "branches" Json.array? =
        some (branches.map toJson) := by
      rw [Json.required?_of_some (field?_of_form (by decide)), ← listToJson_eq]
      rfl
    have hform : ((Json.object (formMembers (.alternatives branches))).required? "kind"
        (Json.kind? true formKinds) >>= formKind?) = some .alternatives := rfl
    rw [formOfJson?, hkind, hform]
    simp only [Option.bind_eq_bind, Option.bind_some]
    rw [Option.attach_eq_some _ ⟨_, hitems⟩]
    simp only [Option.bind_some, hlist]
    rfl

theorem ofJson?_toJson {condition : Condition} (h : condition.Finite) :
    ofJson? condition.toJson = some condition := by
  induction h with
  | mk hform _ _ hbranches hweak =>
    rw [ofJson?, formOfJson?_toJson hform hbranches, attachmentsOfJson?_toJson hweak]
    rfl

section Decoded

variable {j : Json}

theorem finite_of_formOfJson? (hj : j.Finite)
    (hsmaller : ∀ item condition, sizeOf item < sizeOf j → item.Finite →
      ofJson? item = some condition → condition.Finite)
    (h : formOfJson? j = some form) :
    form.Finite ∧ ∀ branch ∈ form.branches, branch.Finite := by
  have hpattern : ∀ {p}, j.required? "pattern" (Pattern.ofJson? true) = some p → p.Finite :=
    hj.required? fun _ _ => Pattern.finite_of_ofJson?
  rw [formOfJson?] at h
  obtain ⟨kind, -, h⟩ := Option.bind_eq_some_iff.mp h
  cases kind with
  | everything | nothing =>
    cases h
    exact ⟨trivial, by simp [Form.branches]⟩
  | pattern =>
    obtain ⟨p, hp, h⟩ := Option.bind_eq_some_iff.mp h
    cases h
    exact ⟨hpattern hp, by simp [Form.branches]⟩
  | filter =>
    obtain ⟨f, hf, h⟩ := Option.bind_eq_some_iff.mp h
    cases h
    have hfinite : f.Finite := hj.required? (fun _ _ => Filter.finite_of_ofJson?) hf
    exact ⟨hfinite, by simp [Form.branches]⟩
  | singleton =>
    obtain ⟨r, -, h⟩ := Option.bind_eq_some_iff.mp h
    obtain ⟨p, hp, h⟩ := Option.bind_eq_some_iff.mp h
    cases h
    exact ⟨hpattern hp, by simp [Form.branches]⟩
  | alternatives =>
    obtain ⟨⟨items, hitems⟩, -, h⟩ := Option.bind_eq_some_iff.mp h
    obtain ⟨branches, hbranches, h⟩ := Option.bind_eq_some_iff.mp h
    cases h
    rw [listOfJson?_eq] at hbranches
    exact ⟨trivial, hj.mapM_required? hitems (fun _ => Json.sizeOf_field?) hsmaller hbranches⟩

theorem finite_of_attachmentsOfJson? (hj : j.Finite)
    (hsmaller : ∀ item condition, sizeOf item < sizeOf j → item.Finite →
      ofJson? item = some condition → condition.Finite)
    (h : attachmentsOfJson? j = some a) : ∀ w ∈ a.weak, w.Finite := by
  rw [attachmentsOfJson?] at h
  obtain ⟨vocabularies, -, h⟩ := Option.bind_eq_some_iff.mp h
  dsimp only at h
  split at h
  · obtain ⟨weak, hweak, h⟩ := Option.bind_eq_some_iff.mp h
    obtain ⟨sortVariables, -, h⟩ := Option.bind_eq_some_iff.mp h
    obtain ⟨safe, -, h⟩ := Option.bind_eq_some_iff.mp h
    cases h
    cases hweak
    simp
  · rename_i items hfield
    obtain ⟨weak, hweak, h⟩ := Option.bind_eq_some_iff.mp h
    obtain ⟨sortVariables, -, h⟩ := Option.bind_eq_some_iff.mp h
    obtain ⟨safe, -, h⟩ := Option.bind_eq_some_iff.mp h
    cases h
    rw [listOfJson?_eq] at hweak
    have hitems : j.required? "weak" Json.array? = some items := Json.required?_of_some hfield
    exact hj.mapM_required? hitems (fun _ => Json.sizeOf_field?) hsmaller hweak
  · cases h

theorem finite_of_ofJson? {condition : Condition} (hj : j.Finite)
    (h : ofJson? j = some condition) : condition.Finite := by
  induction hsize : sizeOf j using Nat.strongRecOn generalizing j condition with
  | _ size ih =>
    subst hsize
    have hsmaller : ∀ item condition, sizeOf item < sizeOf j → item.Finite →
        ofJson? item = some condition → condition.Finite :=
      fun item condition hlt hitem hcondition => ih (sizeOf item) hlt hitem hcondition rfl
    rw [ofJson?] at h
    obtain ⟨form, hform, h⟩ := Option.bind_eq_some_iff.mp h
    obtain ⟨a, ha, h⟩ := Option.bind_eq_some_iff.mp h
    cases h
    obtain ⟨hfinite, hbranches⟩ := finite_of_formOfJson? hj hsmaller hform
    exact .mk hfinite hbranches (finite_of_attachmentsOfJson? hj hsmaller ha)

end Decoded

end Condition

end WikiQuery
