import WikiQuery.Proofs.Compile.SortVariables

namespace WikiQuery

namespace Text

-- A name: at least one letter, digit or underscore, all of them in ASCII.
def IsName (name : String) : Prop :=
  name ≠ "" ∧ ∀ ch ∈ name.toList,
    ('a' ≤ ch ∧ ch ≤ 'z') ∨ ('A' ≤ ch ∧ ch ≤ 'Z') ∨ ('0' ≤ ch ∧ ch ≤ '9') ∨ ch = '_'

-- A numeral: at least one digit, and nothing else. It may begin with zeros.
def IsNumeral (digits : String) : Prop :=
  digits ≠ "" ∧ ∀ ch ∈ digits.toList, '0' ≤ ch ∧ ch ≤ '9'

theorem isDigit_iff_le {ch : Char} : ch.isDigit = true ↔ '0' ≤ ch ∧ ch ≤ '9' :=
  Bool.and_eq_true_iff.trans (and_congr decide_eq_true_iff decide_eq_true_iff)

end Text

open Text

-- What is asked of settings. With a numeral behind the stem, and the suffix behind that, a name is
-- one that the compiler could make up.
structure Settings.Valid (s : Settings) : Prop where
  stem : IsName s.stem
  result : IsName s.result
  sortSuffix : IsName s.sortSuffix
  categoryDepth : s.categoryDepth.toNat ≤ 100
  propertyDepth : s.propertyDepth.toNat ≤ 100
  result_ne_fresh : ∀ digits, IsNumeral digits → s.result ≠ s.stem ++ digits
  result_ne_freshSort : ∀ digits, IsNumeral digits → s.result ≠ s.stem ++ digits ++ s.sortSuffix

namespace Settings

variable {s : Settings} {setting : Setting}

theorem isNameChar_iff {ch : Char} : isNameChar ch = true ↔
    ('a' ≤ ch ∧ ch ≤ 'z') ∨ ('A' ≤ ch ∧ ch ≤ 'Z') ∨ ('0' ≤ ch ∧ ch ≤ '9') ∨ ch = '_' := by
  have hlower : ch.isLower = true ↔ 'a' ≤ ch ∧ ch ≤ 'z' :=
    Bool.and_eq_true_iff.trans (and_congr decide_eq_true_iff decide_eq_true_iff)
  have hupper : ch.isUpper = true ↔ 'A' ≤ ch ∧ ch ≤ 'Z' := decide_eq_true_iff
  have hchar : isNameChar ch = (ch.isUpper || ch.isLower || ch.isDigit || decide (ch = '_')) := rfl
  rw [hchar, Bool.or_eq_true, Bool.or_eq_true, Bool.or_eq_true, hlower, hupper, isDigit_iff_le,
    decide_eq_true_iff, or_assoc, or_assoc, or_left_comm]

theorem nameFault?_eq_none {value : String} : nameFault? setting value = none ↔ IsName value := by
  unfold nameFault? IsName
  by_cases hempty : value = ""
  · simp [hempty]
  · have hchars : value.toList.all isNameChar = true ↔ ∀ ch ∈ value.toList,
        ('a' ≤ ch ∧ ch ≤ 'z') ∨ ('A' ≤ ch ∧ ch ≤ 'Z') ∨ ('0' ≤ ch ∧ ch ≤ '9') ∨ ch = '_' := by
      simp only [List.all_eq_true, isNameChar_iff]
    rw [← hchars]
    by_cases hall : value.toList.all isNameChar = true <;> simp [hempty, hall]

theorem depthFault?_eq_none {depth : UInt32} :
    depthFault? setting depth = none ↔ depth.toNat ≤ 100 := by
  have hmax : maxDepth < depth ↔ 100 < depth.toNat := UInt32.lt_iff_toNat_lt
  unfold depthFault?
  by_cases h : maxDepth < depth
  · rw [if_pos h]
    have := hmax.mp h
    simp only [reduceCtorEq, false_iff]
    omega
  · rw [if_neg h]
    have := mt hmax.mpr h
    simp only [true_iff]
    omega

theorem before?_eq_some {ending name front : List Char} :
    before? ending name = some front ↔ name = front ++ ending := by
  constructor
  · intro h
    unfold before? at h
    split at h
    · next hsuffix =>
      obtain ⟨start, rfl⟩ := List.isSuffixOf_iff_suffix.mp hsuffix
      rw [List.length_append, Nat.add_sub_cancel, List.take_left] at h
      rw [Option.some.inj h]
    · cases h
  · rintro rfl
    exact before?_append front ending

-- A name is a numbered one just if it is the stem with a numeral behind it.
theorem numbered_toList_iff {stem name : String} :
    numbered stem.toList name.toList = true ↔
      ∃ digits, IsNumeral digits ∧ name = stem ++ digits := by
  rw [numbered_iff]
  constructor
  · rintro ⟨digits, hne, hdigits, hname⟩
    refine ⟨String.ofList digits, ⟨?_, ?_⟩, ?_⟩
    · intro hempty
      exact hne (String.ofList_injective hempty)
    · intro ch hch
      rw [String.toList_ofList] at hch
      exact isDigit_iff_le.mp (hdigits ch hch)
    · apply String.toList_injective
      rw [hname, String.toList_append, String.toList_ofList]
  · rintro ⟨digits, ⟨hne, hdigits⟩, rfl⟩
    refine ⟨digits.toList, ?_, ?_, String.toList_append⟩
    · intro hempty
      exact hne (String.toList_injective hempty)
    · intro ch hch
      exact isDigit_iff_le.mpr (hdigits ch hch)

-- Taking the suffix away and then the stem finds every way to read the variable of the results as
-- the sort variable of a fresh one, and no other, also where the names overlap.
theorem collides_iff : s.collides = true ↔ ∃ digits, IsNumeral digits ∧
    (s.result = s.stem ++ digits ∨ s.result = s.stem ++ digits ++ s.sortSuffix) := by
  rw [collides, Bool.or_eq_true, numbered_toList_iff]
  simp only [and_or_left, exists_or]
  refine or_congr_right ?_
  cases hbefore : before? s.sortSuffix.toList s.result.toList with
  | none =>
    constructor
    · intro h
      cases h
    · rintro ⟨digits, -, hresult⟩
      rw [hresult, String.toList_append, before?_append] at hbefore
      cases hbefore
  | some front =>
    obtain ⟨name, rfl⟩ : ∃ name : String, front = name.toList :=
      ⟨String.ofList front, String.toList_ofList.symm⟩
    have hresult : s.result = name ++ s.sortSuffix := by
      apply String.toList_injective
      rw [before?_eq_some.mp hbefore, String.toList_append]
    dsimp only
    rw [numbered_toList_iff, hresult]
    simp only [String.append_left_inj]

theorem fault?_eq_none : s.fault? = none ↔ s.Valid := by
  have hcollision : (if s.collides then some (Fault.collision s.result s.stem) else none) = none ↔
      ∀ digits, IsNumeral digits →
        s.result ≠ s.stem ++ digits ∧ s.result ≠ s.stem ++ digits ++ s.sortSuffix := by
    rw [ite_eq_right_iff]
    simp only [reduceCtorEq, imp_false, collides_iff, not_exists, not_and, not_or, ne_eq]
  unfold fault?
  simp only [Option.or_eq_none_iff, nameFault?_eq_none, depthFault?_eq_none, hcollision]
  constructor
  · rintro ⟨hstem, hresult, hsuffix, hapart, hcategory, hproperty⟩
    exact ⟨hstem, hresult, hsuffix, hcategory, hproperty, fun digits h => (hapart digits h).1,
      fun digits h => (hapart digits h).2⟩
  · intro h
    exact ⟨h.stem, h.result, h.sortSuffix,
      fun digits hd => ⟨h.result_ne_fresh digits hd, h.result_ne_freshSort digits hd⟩,
      h.categoryDepth, h.propertyDepth⟩

-- Settings without a fault are the valid ones. Under them, whatever has been compiled so far, the
-- next variable is not the variable of the results, and neither is the one that holds its sort key.
theorem faultless_iff_valid (s : Settings) :
    (s.fault? = none ↔ s.Valid) ∧
    (s.fault? = none → ∀ w : Work,
      (w.fresh s.stem).1 ≠ ⟨s.result⟩ ∧
      (w.fresh s.stem).1.withSuffix s.sortSuffix ≠ ⟨s.result⟩) := by
  refine ⟨fault?_eq_none, ?_⟩
  intro h w
  constructor
  · intro heq
    exact result_ne_numbered h (w.counter + 1) (congrArg Variable.name heq).symm
  · intro heq
    exact result_ne_numbered_append h (w.counter + 1) (congrArg Variable.name heq).symm

-- Between a stem that ends with digits and a suffix that begins with them, no digit is left over.
theorem faultless_iff_valid_overlap :
    let s : Settings := { stem := "v1", result := "v12sk", sortSuffix := "2sk" }
    s.fault? = none ∧ s.Valid ∧ ∀ w : Work,
      (w.fresh "v1").1 ≠ ⟨"v12sk"⟩ ∧ (w.fresh "v1").1.withSuffix "2sk" ≠ ⟨"v12sk"⟩ := by
  intro s
  have hfault : s.fault? = none := by decide +kernel
  exact ⟨hfault, (faultless_iff_valid s).1.mp hfault, (faultless_iff_valid s).2 hfault⟩

end Settings

end WikiQuery
