import WikiQuery.Proofs.Compile.Rules

namespace WikiQuery

theorem Text.decimal_injective {m n : Nat} (h : Text.decimal m = Text.decimal n) : m = n := by
  have hdigits : Nat.toDigits 10 m = Nat.toDigits 10 n := String.ofList_injective h
  have hvalue := congrArg (Nat.ofDigitChars 10 · 0) hdigits
  simpa only [Nat.ofDigitChars_ten_toDigits] using hvalue

namespace Settings

theorem numbered_iff {stem name : List Char} :
    numbered stem name = true ↔
      ∃ digits, digits ≠ [] ∧ (∀ d ∈ digits, d.isDigit = true) ∧ name = stem ++ digits := by
  unfold numbered after?
  by_cases h : stem.isPrefixOf name = true
  · obtain ⟨digits, rfl⟩ := List.isPrefixOf_iff_prefix.mp h
    simp [h]
  · have hno : ∀ digits, name ≠ stem ++ digits := by
      intro digits he
      exact h (List.isPrefixOf_iff_prefix.mpr ⟨digits, he.symm⟩)
    simp [h, hno]

theorem numbered_decimal (stem : String) (n : Nat) :
    numbered stem.toList (stem ++ Text.decimal n).toList = true := by
  refine numbered_iff.mpr ⟨Nat.toDigits 10 n, Nat.toDigits_ne_nil, ?_, ?_⟩
  · intro d hd
    exact Nat.isDigit_of_mem_toDigits (by decide) (by decide) hd
  · simp [Text.decimal, String.toList_append]

theorem collides_eq_false {s : Settings} (h : s.fault? = none) : s.collides = false := by
  unfold fault? at h
  cases hcollides : s.collides with
  | false => rfl
  | true => simp [hcollides] at h

-- Among valid settings, the variable of the results is not one of the fresh variables.
theorem result_ne_numbered {s : Settings} (h : s.fault? = none) (n : Nat) :
    s.result ≠ s.stem ++ Text.decimal n := by
  intro heq
  have hcollides := collides_eq_false h
  have hnumbered := numbered_decimal s.stem n
  rw [← heq] at hnumbered
  simp [collides, hnumbered] at hcollides

end Settings

namespace Compiler

variable {c : Compiler}

theorem numbered_injective {m n : Nat} (h : c.numbered m = c.numbered n) : m = n := by
  have hname : c.settings.stem ++ Text.decimal m = c.settings.stem ++ Text.decimal n :=
    congrArg Variable.name h
  exact Text.decimal_injective ((String.append_right_inj _).mp hname)

theorem numbered_ne_of_lt {m n : Nat} (h : m < n) : c.numbered m ≠ c.numbered n := by
  intro heq
  have := numbered_injective heq
  omega

theorem result_ne_numbered (h : c.settings.fault? = none) (n : Nat) :
    (⟨c.settings.result⟩ : Variable) ≠ c.numbered n := by
  intro heq
  exact Settings.result_ne_numbered h n (congrArg Variable.name heq)

end Compiler

end WikiQuery
