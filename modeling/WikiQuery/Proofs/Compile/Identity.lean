import WikiQuery.Proofs.Compile.SortVariables
import WikiQuery.Proofs.Compile.Status

namespace WikiQuery

namespace Text

theorem notMem_decimal (ch : Char) (h : ch.isDigit = false) (n : Nat) :
    ch ∉ (decimal n).toList := by
  intro hmem
  rw [isDigit_of_mem_decimal hmem] at h
  cases h

theorem decimal_ne_minus (m n : Nat) : decimal m ≠ "-" ++ decimal n := by
  intro h
  apply notMem_decimal '-' (by decide) m
  rw [h, String.toList_append]
  exact List.mem_append_left _ (by decide)

theorem signed_injective {i j : Int} (h : signed i = signed j) : i = j := by
  unfold signed at h
  by_cases hi : i < 0 <;> by_cases hj : j < 0
  · rw [if_pos hi, if_pos hj, String.append_right_inj] at h
    have habs := decimal_injective h
    omega
  · rw [if_pos hi, if_neg hj] at h
    exact absurd h.symm (decimal_ne_minus _ _)
  · rw [if_neg hi, if_pos hj] at h
    exact absurd h (decimal_ne_minus _ _)
  · rw [if_neg hi, if_neg hj] at h
    have habs := decimal_injective h
    omega

theorem colon_notMem_signed (i : Int) : ':' ∉ (signed i).toList := by
  have hdecimal := notMem_decimal ':' (by decide) i.natAbs
  unfold signed
  split
  · rw [String.toList_append, List.mem_append, not_or]
    exact ⟨by decide, hdecimal⟩
  · exact hdecimal

-- What stands before the first colon of a text and what stands behind it are settled by the text.
theorem append_colon_inj {a b s t : String} (ha : ':' ∉ a.toList) (hb : ':' ∉ b.toList) :
    a ++ ":" ++ s = b ++ ":" ++ t ↔ a = b ∧ s = t := by
  have hbefore : ∀ {a : String} (s : String), ':' ∉ a.toList →
      (a ++ ":" ++ s).toList.takeWhile (· ≠ ':') = a.toList := by
    intro a s ha
    have hall : ∀ ch ∈ a.toList, decide (ch ≠ ':') = true := by
      intro ch hch
      rw [decide_eq_true_eq]
      rintro rfl
      exact ha hch
    rw [String.toList_append, String.toList_append, List.append_assoc,
      List.takeWhile_append_of_pos hall]
    simp
  constructor
  · intro h
    have hab : a = b := by
      apply String.toList_injective
      rw [← hbefore s ha, h, hbefore t hb]
    subst hab
    exact ⟨rfl, (String.append_right_inj _).mp h⟩
  · rintro ⟨rfl, rfl⟩
    rfl

end Text

namespace Page

-- Two ways to write one page.
def Same (p q : Page) : Prop := p.space = q.space ∧ p.key = q.key

-- A page of the main namespace is shown like a page of another one: its key begins with the number
-- of that namespace and a colon.
def PassesFor (p q : Page) : Prop :=
  p.space = 0 ∧ q.space ≠ 0 ∧ p.key = Text.signed q.space.toInt ++ ":" ++ q.key

instance (p q : Page) : Decidable (p.Same q) := inferInstanceAs (Decidable (_ ∧ _))

instance (p q : Page) : Decidable (p.PassesFor q) := inferInstanceAs (Decidable (_ ∧ _ ∧ _))

variable {p q : Page}

theorem PassesFor.shown_eq (h : p.PassesFor q) : p.shown = q.shown := by
  obtain ⟨hp, hq, hkey⟩ := h
  unfold shown
  rw [if_pos hp, if_neg hq, hkey]
  simp only [String.append_assoc]

theorem shown_eq_iff : p.shown = q.shown ↔ p.Same q ∨ p.PassesFor q ∨ q.PassesFor p := by
  constructor
  · intro h
    unfold shown at h
    by_cases hp : p.space = 0 <;> by_cases hq : q.space = 0
    · rw [if_pos hp, if_pos hq, String.append_right_inj] at h
      exact .inl ⟨hp.trans hq.symm, h⟩
    · rw [if_pos hp, if_neg hq, String.append_assoc, String.append_assoc,
        String.append_right_inj, ← String.append_assoc] at h
      exact .inr (.inl ⟨hp, hq, h⟩)
    · rw [if_neg hp, if_pos hq, String.append_assoc, String.append_assoc,
        String.append_right_inj, ← String.append_assoc] at h
      exact .inr (.inr ⟨hq, hp, h.symm⟩)
    · -- both numbers are shown, and end at the first colon behind the mark of the wiki
      rw [if_neg hp, if_neg hq] at h
      simp only [String.append_assoc, String.append_right_inj] at h
      rw [← String.append_assoc, ← String.append_assoc,
        Text.append_colon_inj (Text.colon_notMem_signed _) (Text.colon_notMem_signed _)] at h
      exact .inl ⟨Int32.toInt_inj.mp (Text.signed_injective h.1), h.2⟩
  · rintro (⟨hspace, hkey⟩ | h | h)
    · unfold shown
      rw [hspace, hkey]
    · exact h.shown_eq
    · exact h.shown_eq.symm

theorem PassesFor.not_same (h : p.PassesFor q) : ¬ p.Same q := by
  rintro ⟨hspace, -⟩
  exact h.2.1 (hspace.symm.trans h.1)

end Page

namespace Resource

-- Two ways to write one resource: the same page, or the same address outside the wiki.
def Same : Resource → Resource → Prop
  | .page p, .page q => p.Same q
  | .external v name, .external v' name' => v.uri ++ name = v'.uri ++ name'
  | .page _, .external .. => False
  | .external .., .page _ => False

-- Two resources that differ and are taken for one: pages that are shown alike, or an address that
-- is spelled as a page is shown.
def Confused : Resource → Resource → Prop
  | .page p, .page q => p.PassesFor q ∨ q.PassesFor p
  | .external .., .external .. => False
  | .page p, .external v name => v.uri ++ name = p.shown
  | .external v name, .page p => v.uri ++ name = p.shown

instance (r t : Resource) : Decidable (r.Same t) :=
  match r, t with
  | .page p, .page q => inferInstanceAs (Decidable (p.Same q))
  | .external v name, .external v' name' =>
    inferInstanceAs (Decidable (v.uri ++ name = v'.uri ++ name'))
  | .page _, .external .. => inferInstanceAs (Decidable False)
  | .external .., .page _ => inferInstanceAs (Decidable False)

instance (r t : Resource) : Decidable (r.Confused t) :=
  match r, t with
  | .page p, .page q => inferInstanceAs (Decidable (p.PassesFor q ∨ q.PassesFor p))
  | .external .., .external .. => inferInstanceAs (Decidable False)
  | .page p, .external v name => inferInstanceAs (Decidable (v.uri ++ name = p.shown))
  | .external v name, .page p => inferInstanceAs (Decidable (v.uri ++ name = p.shown))

variable {r t : Resource}

theorem identity_eq_iff : r.identity = t.identity ↔ r.Same t ∨ r.Confused t := by
  cases r with
  | page p =>
    cases t with
    | page q => exact Page.shown_eq_iff
    | external v name =>
      simp only [identity, Same, Confused, false_or]
      exact eq_comm
  | external v name =>
    cases t with
    | page q => simp only [identity, Same, Confused, false_or]
    | external v' name' => simp only [identity, Same, Confused, or_false]

theorem Confused.not_same (h : r.Confused t) : ¬ r.Same t := by
  cases r with
  | page p =>
    cases t with
    | page q =>
      rcases h with h | h
      · exact h.not_same
      · rintro ⟨hspace, hkey⟩
        exact h.not_same ⟨hspace.symm, hkey.symm⟩
    | external v name => exact id
  | external v name =>
    cases t with
    | page q => exact id
    | external v' name' => exact h.elim

end Resource

namespace Compiler

variable {c : Compiler} {keys : SortKeys} {path : List Page} {join : Variable}
  {target : Option SortTarget} {s s' : Progress}

-- To be the one resource and the other one.
def both (p q : Property) (r t : Resource) : Description :=
  .conjunction [.value p .eq (.page r), .value q .eq (.page t)]

theorem Compiles.both_eq_nothing {p q : Property} {r t : Resource} {condition : Condition}
    (h : Compiles c keys path (both p q r t) join target s condition s') :
    condition.form = .nothing ↔ r.identity ≠ t.identity := by
  have hstatus : c.catalog.status path (both p q r t) =
      .conjunction [.only r.identity, .only t.identity] := by
    rw [both, Catalog.status_conjunction, List.map_cons, List.map_cons, List.map_nil,
      Catalog.status, Catalog.status, Status.comparison, Status.comparison]
  rw [← Form.status_eq_never, h.status, hstatus]
  constructor
  · intro hnever heq
    rw [heq] at hnever
    simp [Status.conjunction, Status.identities] at hnever
  · intro hne
    exact Status.conjunction_eq_never (by simp)
      (.inr ⟨r.identity, t.identity, by simp, by simp, hne⟩)

-- Resources are identified just if they are the same or are confused, and they are not both. A
-- conjunction that asks for two resources is fulfilled by nothing just in the other cases.
theorem compile_both_eq_nothing_iff (c : Compiler) (hc : c.Standard) (keys : SortKeys)
    (path : List Page) (join : Variable) (target : Option SortTarget) (w : Work) (p q : Property)
    (r t : Resource) :
    (r.identity = t.identity ↔ r.Same t ∨ r.Confused t) ∧ (r.Confused t → ¬ r.Same t) ∧
    ∃ condition w',
      (c.compile keys path (both p q r t) join target).run.run w = (.ok condition, w') ∧
      (condition.form = .nothing ↔ ¬ r.Same t ∧ ¬ r.Confused t) := by
  refine ⟨Resource.identity_eq_iff, Resource.Confused.not_same, ?_⟩
  obtain ⟨condition, w', hrun, h⟩ := compile_run hc path (both p q r t) join target w
  refine ⟨condition, w', hrun, ?_⟩
  rw [h.both_eq_nothing, Ne, Resource.identity_eq_iff, not_or]

-- No page is both the special page of a name and the page of that name in the main namespace.
theorem compile_both_eq_nothing_search :
    let search (space : Int32) : Resource := .page ⟨" Search ", space⟩
    let c : Compiler := {}
    c.Standard ∧ ∃ condition w',
      (c.compile ∅ [] (both { key := "Name" } { key := "Name" } (search 0) (search (-1)))
        ⟨"result"⟩ none).run.run {} = (.ok condition, w') ∧ condition.form = .nothing := by
  intro search c
  have hc : c.Standard := standard_of_builders rfl
  obtain ⟨-, -, condition, w', hrun, h⟩ := compile_both_eq_nothing_iff c hc ∅ [] ⟨"result"⟩ none {}
    { key := "Name" } { key := "Name" } (search 0) (search (-1))
  exact ⟨hc, condition, w', hrun, h.mpr (by decide +kernel)⟩

-- The film `2:22` of the main namespace and the user `22` of the namespace with the number 2 are
-- two pages, but a query for what is both of them is not fulfilled by nothing.
theorem compile_both_film_user :
    let film : Resource := .page ⟨"2:22", 0⟩
    let user : Resource := .page ⟨"22", 2⟩
    let c : Compiler := {}
    film.identity = user.identity ∧ ¬ film.Same user ∧ ∃ condition w',
      (c.compile ∅ [] (both { key := "Name" } { key := "Name" } film user) ⟨"result"⟩
        none).run.run {} = (.ok condition, w') ∧ condition.form ≠ .nothing := by
  intro film user c
  have hsame : film.identity = user.identity := by decide +kernel
  let d := both { key := "Name" } { key := "Name" } film user
  have hcompiles : ∃ condition w',
      (c.compile ∅ [] d ⟨"result"⟩ none).run.run {} = (.ok condition, w') ∧
      Compiles c ∅ [] d ⟨"result"⟩ none ({} : Work).progress condition w'.progress :=
    compile_run (standard_of_builders rfl) [] d ⟨"result"⟩ none {}
  obtain ⟨condition, w', hrun, h⟩ := hcompiles
  refine ⟨hsame, by decide +kernel, condition, w', hrun, ?_⟩
  intro hnothing
  exact h.both_eq_nothing.mp hnothing hsame

end Compiler

end WikiQuery
