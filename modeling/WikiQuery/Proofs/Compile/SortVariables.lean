import Mathlib.Tactic.ByContra
import WikiQuery.Proofs.Compile.Scope
import WikiQuery.Proofs.Compile.Weak
import WikiQuery.Proofs.Condition.Joins

namespace WikiQuery

namespace Text

theorem toDigits_of_isDigit {ch : Char} (h : ch.isDigit = true) :
    ∃ d, d < 10 ∧ Nat.toDigits 10 d = [ch] := by
  obtain ⟨hlo, hhi⟩ := Char.isDigit_iff_toNat.mp h
  have hlo : 48 ≤ ch.toNat := hlo
  have hhi : ch.toNat ≤ 57 := hhi
  have hlt : ch.toNat - 48 < 10 := by omega
  refine ⟨ch.toNat - 48, hlt, ?_⟩
  rw [Nat.toDigits_of_lt_base hlt]
  have hnat : (ch.toNat - 48).digitChar.toNat = ch.toNat := by
    rw [Nat.toNat_digitChar_of_lt_ten hlt]
    omega
  rw [Char.toNat_inj.mp hnat]

-- Digits behind a number that is not zero make another number.
theorem decimal_append_digits {n : Nat} (hn : 1 ≤ n) {digits : String}
    (h : ∀ ch ∈ digits.toList, ch.isDigit = true) :
    ∃ m, 1 ≤ m ∧ decimal n ++ digits = decimal m := by
  have hlist : ∀ (chs : List Char) (n : Nat), 1 ≤ n → (∀ ch ∈ chs, ch.isDigit = true) →
      ∃ m, 1 ≤ m ∧ Nat.toDigits 10 n ++ chs = Nat.toDigits 10 m := by
    intro chs
    induction chs with
    | nil => exact fun n hn _ => ⟨n, hn, List.append_nil _⟩
    | cons ch rest ih =>
      intro n hn hchs
      obtain ⟨hch, hrest⟩ := List.forall_mem_cons.mp hchs
      obtain ⟨d, hd, hdigit⟩ := toDigits_of_isDigit hch
      obtain ⟨m, hm, hmore⟩ := ih (10 * n + d) (by omega) hrest
      refine ⟨m, hm, ?_⟩
      rw [← hmore, ← Nat.toDigits_append_toDigits (by omega) hn hd, hdigit, List.append_assoc]
      rfl
  obtain ⟨m, hm, hdigits⟩ := hlist digits.toList n hn h
  refine ⟨m, hm, ?_⟩
  apply String.toList_injective
  simpa [decimal] using hdigits

theorem isDigit_of_mem_decimal {n : Nat} {ch : Char} (h : ch ∈ (decimal n).toList) :
    ch.isDigit = true := by
  rw [decimal, String.toList_ofList] at h
  exact Nat.isDigit_of_mem_toDigits (by omega) (by omega) h

end Text

namespace Settings

variable {s : Settings}

theorem sortSuffix_ne_empty (h : s.fault? = none) : s.sortSuffix ≠ "" := by
  intro hempty
  simp [fault?, nameFault?, hempty] at h

theorem before?_append (name ending : List Char) : before? ending (name ++ ending) = some name := by
  unfold before?
  rw [if_pos (List.isSuffixOf_iff_suffix.mpr (List.suffix_append name ending)),
    List.length_append, Nat.add_sub_cancel, List.take_left]

-- Among valid settings, the variable of the results holds the sort key of no fresh variable.
theorem result_ne_numbered_append (h : s.fault? = none) (n : Nat) :
    s.result ≠ s.stem ++ Text.decimal n ++ s.sortSuffix := by
  intro heq
  have hbefore : before? s.sortSuffix.toList s.result.toList =
      some (s.stem ++ Text.decimal n).toList := by
    rw [heq, String.toList_append, before?_append]
  have hcollides := collides_eq_false h
  rw [collides, hbefore] at hcollides
  simp only [numbered_decimal, Bool.or_true] at hcollides
  cases hcollides

-- No variable becomes a fresh variable by the suffix of sort keys: neither a fresh variable nor the
-- variable of the results.
def SortsApart (s : Settings) : Prop :=
  (∃ ch ∈ s.sortSuffix.toList, ch.isDigit = false) ∧
  ∀ n, 1 ≤ n → s.result ++ s.sortSuffix ≠ s.stem ++ Text.decimal n

theorem numbered_append_ne (h : s.SortsApart) (m n : Nat) :
    s.stem ++ Text.decimal m ++ s.sortSuffix ≠ s.stem ++ Text.decimal n := by
  intro heq
  obtain ⟨ch, hmem, hch⟩ := h.1
  rw [String.append_assoc, String.append_right_inj] at heq
  have hdigit : ch.isDigit = true := by
    apply Text.isDigit_of_mem_decimal (n := n)
    rw [← heq, String.toList_append]
    exact List.mem_append_right _ hmem
  rw [hch] at hdigit
  cases hdigit

-- Where the suffix makes a fresh variable, it makes one of the variable of the results or of the
-- first fresh variable.
theorem exists_of_not_sortsApart (h : ¬ s.SortsApart) :
    ∃ n, 1 ≤ n ∧ (s.result ++ s.sortSuffix = s.stem ++ Text.decimal n ∨
      s.stem ++ Text.decimal 1 ++ s.sortSuffix = s.stem ++ Text.decimal n) := by
  by_cases hdigits : ∃ ch ∈ s.sortSuffix.toList, ch.isDigit = false
  · by_contra hnone
    refine h ⟨hdigits, ?_⟩
    intro n hn heq
    exact hnone ⟨n, hn, .inl heq⟩
  · have hall : ∀ ch ∈ s.sortSuffix.toList, ch.isDigit = true := by
      intro ch hmem
      by_contra hch
      exact hdigits ⟨ch, hmem, by simpa using hch⟩
    obtain ⟨m, hm, heq⟩ := Text.decimal_append_digits (Nat.le_refl 1) hall
    exact ⟨m, hm, .inr (by rw [String.append_assoc, heq])⟩

end Settings

namespace Compiler

variable {c : Compiler} {keys : SortKeys}

-- The variables of a query: the one of the results and the fresh ones.
def Uses (c : Compiler) (v : Variable) : Prop :=
  v = ⟨c.settings.result⟩ ∨ ∃ n, 1 ≤ n ∧ v = c.numbered n

theorem withSuffix_ne_result (h : c.settings.fault? = none) {v : Variable} (hv : c.Uses v) :
    v.withSuffix c.settings.sortSuffix ≠ ⟨c.settings.result⟩ := by
  intro heq
  have hname := congrArg Variable.name heq
  rcases hv with rfl | ⟨n, -, rfl⟩
  · have hempty : c.settings.result ++ c.settings.sortSuffix = c.settings.result ++ "" := by
      simpa [Variable.withSuffix] using hname
    exact Settings.sortSuffix_ne_empty h ((String.append_right_inj _).mp hempty)
  · exact Settings.result_ne_numbered_append h n hname.symm

theorem withSuffix_ne (h : c.settings.fault? = none) (hapart : c.settings.SortsApart)
    {v w : Variable} (hv : c.Uses v) (hw : c.Uses w) :
    v.withSuffix c.settings.sortSuffix ≠ w := by
  rcases hw with rfl | ⟨n, hn, rfl⟩
  · exact withSuffix_ne_result h hv
  · intro heq
    have hname := congrArg Variable.name heq
    rcases hv with rfl | ⟨m, -, rfl⟩
    · exact hapart.2 n hn hname
    · exact Settings.numbered_append_ne hapart m n hname

theorem withSuffix_injective {v w : Variable} {suffix : String}
    (h : v.withSuffix suffix = w.withSuffix suffix) : v = w := by
  have hname := congrArg Variable.name h
  exact congrArg Variable.mk ((String.append_left_inj suffix).mp hname)

-- A condition joins variables of its query only, and it binds sort keys of such variables only.
theorem Compiles.uses {path : List Page} {d : Description} {target : Option SortTarget}
    {s s' : Progress} {condition : Condition}
    (h : Compiles c keys path d ⟨c.settings.result⟩ target s condition s') :
    (∀ v ∈ condition.everyJoin, c.Uses v) ∧
    ∀ v key, (v, key) ∈ condition.sorts →
      c.Uses v ∧ key = v.withSuffix c.settings.sortSuffix := by
  have hsorts := h.onlySortsOn (V := c.Uses) (fun n hn => .inr ⟨n, hn, rfl⟩) (.inl rfl)
  refine ⟨?_, ?_⟩
  · intro v hv
    rw [Condition.everyJoin, List.flatMap_cons, List.mem_append] at hv
    rcases hv with hv | hv
    · have hjoins := h.scoped.joins_subset (List.subset_append_left _ _)
        (List.subset_append_right _ _) hv
      rcases List.mem_append.mp hjoins with hv | hv
      · exact .inl (List.mem_singleton.mp hv)
      · obtain ⟨n, hn, -, rfl⟩ := h.numbers.numbered v hv
        exact .inr ⟨n, by omega, rfl⟩
    · obtain ⟨w, hw, hv⟩ := List.mem_flatMap.mp hv
      obtain ⟨subject, -, rfl⟩ := hsorts w hw
      simp [Condition.ofPattern, Condition.joins, Clause.joins] at hv
  · intro v key hkey
    obtain ⟨w, hw, hmem⟩ := Condition.mem_sorts.mp hkey
    obtain ⟨subject, huses, rfl⟩ := hsorts w hw
    simp only [Condition.ofPattern, Condition.atoms, Pattern.atoms_cons, Clause.atoms,
      Pattern.atoms_nil, List.append_nil, List.mem_singleton, Clause.sortKey.injEq] at hmem
    obtain ⟨rfl, rfl⟩ := hmem
    exact ⟨huses, rfl⟩

theorem attachSort_of_unrequested {join : Variable} {target : Option SortTarget}
    {datatype : Datatype} {condition : Condition}
    (h : ∀ t ∈ target, keys.contains t.key = false) :
    c.attachSort keys join target datatype condition = condition := by
  unfold attachSort
  cases target with
  | none => rfl
  | some t => simp [h t rfl]

theorem mem_weak_attachSort {join : Variable} {t : SortTarget} {condition : Condition}
    (hcondition : condition.isNothing = false) (ht : keys.contains t.key = true)
    (hfree : condition.attachments.sortVariables = ∅) :
    .ofPattern [.sortKey join (join.withSuffix c.settings.sortSuffix)] ∈
      (c.attachSort keys join (some t) .page condition).attachments.weak := by
  have hnone : (∅ : KeyMap Variable).contains t.key = false := rfl
  simp [attachSort, hcondition, ht, hfree, hnone, Datatype.isPage, Condition.withAttachments]

theorem opening_page (key : String) (info : PropertyInfo) (hinfo : info.datatype = .page)
    (join : Variable) (s : Progress) :
    ∃ clause s₁, c.opening join { key } info s = ((clause, c.numbered (s.counter + 1)), s₁) ∧
      s₁.counter = s.counter + 1 ∧ c.numbered (s.counter + 1) ∈ clause.joins := by
  rcases hclose : s.close c.settings.propertyDepth
    (.property { key } info.id c.settings.propertyDepth) with ⟨closure, s₀⟩
  have hcounter := Progress.counter_close hclose
  refine ⟨link join { key } (c.numbered (s.counter + 1)) closure,
    ⟨s.counter + 1, s₀.subqueries⟩, ?_, rfl, ?_⟩
  · simp [opening, hclose, hinfo, Datatype.isPage, hcounter]
  · simp [link, Clause.joins, Term.variables, Term.variable?]

-- Pages from which a property leads on, several times one after the other.
def trail (key : String) : Nat → Description
  | 0 => .thing
  | n + 1 => .someProperty { key } (trail key n)

-- A trail joins as many fresh variables as it is long. Unless its own property is sorted on, the
-- page where it begins can be.
theorem compiles_trail {key : String} {info : PropertyInfo}
    (hp : c.catalog.property? { key } = some info) (hinfo : info.datatype = .page)
    (hkeys : keys.contains key = false) (path : List Page) (n : Nat) (join : Variable)
    {target : Option SortTarget} (htarget : ∀ t ∈ target, t.datatype = .page) (s : Progress) :
    ∃ plain group s', Compiles c keys path (trail key n) join target s
        (c.attachSort keys join target .page plain) s' ∧
      plain.isNothing = false ∧ plain.attachments.sortVariables = ∅ ∧
      (∀ v, plain.toPattern? v = some group) ∧ plain.joins = group.flatMap Clause.joins ∧
      ∀ k, s.counter < k → k ≤ s.counter + n → c.numbered k ∈ plain.joins := by
  induction n generalizing join target s with
  | zero =>
    have heverything : c.everything keys join target =
        c.attachSort keys join target .page .everything := by
      cases target with
      | none => rfl
      | some t => simp [everything, attachRequested, htarget t rfl]
    refine ⟨.everything, [], s, ?_, rfl, rfl, fun _ => rfl, by simp [Condition.everything,
      Condition.joins], by omega⟩
    rw [← heverything]
    exact .thing
  | succ n ih =>
    obtain ⟨clause, s₁, hopen, hcounter, hclause⟩ := c.opening_page key info hinfo join s
    have hpages : ∀ t ∈ some (⟨key, info.datatype⟩ : SortTarget), t.datatype = .page := by
      simp [hinfo]
    obtain ⟨inner, group, s', hinner, -, hfree, hgroup, hjoins, hnumbered⟩ :=
      ih (c.numbered (s.counter + 1)) hpages s₁
    rw [attachSort_of_unrequested (by simp [hkeys])] at hinner
    refine ⟨⟨.pattern (clause :: group), { inner.attachments with safe := true }⟩,
      clause :: group, s', .someProperty hp hopen hinner (hgroup _), rfl, hfree, fun _ => rfl,
      Condition.joins_of_pattern rfl, ?_⟩
    intro k hlo hhi
    rw [Condition.joins_of_pattern rfl, List.flatMap_cons, List.mem_append, ← hjoins]
    by_cases hk : k = s.counter + 1
    · exact .inl (hk ▸ hclause)
    · exact .inr (hnumbered k (by omega) (by omega))

end Compiler

namespace Session

-- A session on a wiki that knows who is married to whom and what is located where.
def almanac (settings : Settings) : Session where
  compiler :=
    { catalog := (({} : Catalog).addProperty "Has spouse" .page).addProperty "Located in" .page
      settings }

variable {settings : Settings}

theorem standard_almanac (settings : Settings) : (almanac settings).compiler.Standard :=
  Compiler.standard_of_builders rfl

-- A query for results at the beginning of a trail, sorted by themselves.
theorem query_trail (settings : Settings) (n : Nat) :
    ∃ q s', (almanac settings).query (Compiler.trail "Has spouse" n) [{ key := "" }] =
        (.ok q, s') ∧
      (⟨settings.result⟩, ⟨settings.result ++ settings.sortSuffix⟩) ∈ q.condition.sorts ∧
      ∀ k, 1 ≤ k → k ≤ n → ⟨settings.stem ++ Text.decimal k⟩ ∈ q.condition.everyJoin := by
  have hp : (almanac settings).compiler.catalog.property? { key := "Has spouse" } =
      some ⟨1, .page⟩ := rfl
  have hkeys : (SortKeys.ofRequests [{ key := "" }]).contains "Has spouse" = false := by
    decide +kernel
  have hrequested : (SortKeys.ofRequests [{ key := "" }]).contains "" = true := by decide +kernel
  have hroot : SortKeys.rootTarget (SortKeys.ofRequests [{ key := "" }]) =
      some SortTarget.mainSubject := if_pos hrequested
  have hpages : ∀ t ∈ some SortTarget.mainSubject, t.datatype = .page := by
    simp [SortTarget.mainSubject]
  obtain ⟨plain, group, p, hplain, hsome, hfree, -, -, hnumbered⟩ :=
    Compiler.compiles_trail hp rfl hkeys [] n ⟨settings.result⟩ hpages {}
  rw [← hroot] at hplain
  obtain ⟨s', hquery, -⟩ := hplain.query (standard_almanac settings)
  refine ⟨_, s', hquery, ?_, ?_⟩
  · rw [hroot]
    exact Condition.mem_sorts_of_weak (Compiler.mem_weak_attachSort hsome hrequested hfree)
  · intro k hlo hhi
    apply Condition.joins_subset_everyJoin
    rw [Condition.joins_eq_of_form (Compiler.form_attachSort ..)]
    exact hnumbered k hlo (Nat.le_trans hhi (Nat.le_add_left n 0))

-- A query for what is located at the beginning of a trail, sorted by that place.
theorem query_located (settings : Settings) (n : Nat) :
    ∃ q s', (almanac settings).query
        (.someProperty { key := "Located in" } (Compiler.trail "Has spouse" n))
        [{ key := "Located in" }] = (.ok q, s') ∧
      (⟨settings.stem ++ Text.decimal 1⟩,
        ⟨settings.stem ++ Text.decimal 1 ++ settings.sortSuffix⟩) ∈ q.condition.sorts ∧
      ∀ k, 1 ≤ k → k ≤ n + 1 → ⟨settings.stem ++ Text.decimal k⟩ ∈ q.condition.everyJoin := by
  have hp : (almanac settings).compiler.catalog.property? { key := "Has spouse" } =
      some ⟨1, .page⟩ := rfl
  have hplace : (almanac settings).compiler.catalog.property? { key := "Located in" } =
      some ⟨2, .page⟩ := rfl
  have hkeys : (SortKeys.ofRequests [{ key := "Located in" }]).contains "Has spouse" = false := by
    decide +kernel
  have hrequested :
      (SortKeys.ofRequests [{ key := "Located in" }]).contains "Located in" = true := by
    decide +kernel
  have hroot : SortKeys.rootTarget (SortKeys.ofRequests [{ key := "Located in" }]) = none := by
    decide +kernel
  have hpages : ∀ t ∈ some (⟨"Located in", .page⟩ : SortTarget), t.datatype = .page := by simp
  obtain ⟨clause, s₁, hopen, hcounter, hclause⟩ :=
    (almanac settings).compiler.opening_page "Located in" ⟨2, .page⟩ rfl ⟨settings.result⟩ {}
  have hfirst : s₁.counter = 1 := hcounter
  obtain ⟨plain, group, p, hplain, hsome, hfree, hgroup, hjoins, hnumbered⟩ :=
    Compiler.compiles_trail hp rfl hkeys [] n ((almanac settings).compiler.numbered 1) hpages s₁
  have hcompiles : (almanac settings).compiler.Compiles _ []
      (.someProperty { key := "Located in" } (Compiler.trail "Has spouse" n))
      ⟨settings.result⟩ none {} _ p :=
    .someProperty hplace hopen hplain
      ((Condition.toPattern?_eq_of_form (Compiler.form_attachSort ..)).trans (hgroup _))
  rw [← hroot] at hcompiles
  obtain ⟨s', hquery, -⟩ := hcompiles.query (standard_almanac settings)
  refine ⟨_, s', hquery, ?_, ?_⟩
  · rw [hroot]
    exact Condition.mem_sorts_of_weak (Compiler.mem_weak_attachSort hsome hrequested hfree)
  · intro k hlo hhi
    apply Condition.joins_subset_everyJoin
    rw [Condition.joins_of_pattern (Compiler.form_propertyCondition ..), List.flatMap_cons,
      List.mem_append, ← hjoins]
    by_cases hone : k = 1
    · exact .inl (hone ▸ hclause)
    · exact .inr (hnumbered k (by omega) (by omega))

-- Among valid settings, the variables that sort keys are bound to differ from each other and from
-- the variable of the results. They differ from all variables that are joined, in every query, just
-- if the settings set them apart from fresh variables, which their validity does not say.
theorem query_sorts_apart_iff (h : settings.fault? = none) :
    (∀ s : Session, s.compiler.Standard → s.compiler.settings = settings → ∀ d sorts,
      ∃ q s', s.query d sorts = (.ok q, s') ∧
        ∀ v key, (v, key) ∈ q.condition.sorts → key ≠ q.result ∧
          ∀ w key', (w, key') ∈ q.condition.sorts → v ≠ w → key ≠ key') ∧
    ((∀ s : Session, s.compiler.Standard → s.compiler.settings = settings → ∀ d sorts q s',
        s.query d sorts = (.ok q, s') →
          ∀ v key, (v, key) ∈ q.condition.sorts → key ∉ q.condition.everyJoin) ↔
      settings.SortsApart) := by
  refine ⟨?_, ?_, ?_⟩
  · rintro s hc rfl d sorts
    obtain ⟨condition, p, s', hcompiles, hquery⟩ := s.query_run hc d sorts
    obtain ⟨-, hsorts⟩ := hcompiles.uses
    refine ⟨_, s', hquery, ?_⟩
    intro v key hkey
    obtain ⟨huses, rfl⟩ := hsorts v key hkey
    refine ⟨Compiler.withSuffix_ne_result h huses, ?_⟩
    intro w key' hkey' hne heq
    obtain ⟨-, rfl⟩ := hsorts w key' hkey'
    exact hne (Compiler.withSuffix_injective heq)
  · intro hall
    by_contra hapart
    obtain ⟨n, hn, heq | heq⟩ := Settings.exists_of_not_sortsApart hapart
    · obtain ⟨q, s', hquery, hkey, hjoins⟩ := query_trail settings n
      rw [heq] at hkey
      exact hall _ (standard_almanac settings) rfl _ _ q s' hquery _ _ hkey
        (hjoins n hn (Nat.le_refl n))
    · obtain ⟨q, s', hquery, hkey, hjoins⟩ := query_located settings n
      rw [heq] at hkey
      exact hall _ (standard_almanac settings) rfl _ _ q s' hquery _ _ hkey
        (hjoins n hn (Nat.le_succ n))
  · rintro hapart s hc rfl d sorts q s' hquery v key hkey hjoin
    obtain ⟨condition, p, s'', hcompiles, hrun⟩ := s.query_run hc d sorts
    rw [hrun] at hquery
    cases hquery
    obtain ⟨hjoins, hsorts⟩ := hcompiles.uses
    obtain ⟨huses, rfl⟩ := hsorts v key hkey
    exact Compiler.withSuffix_ne h hapart huses (hjoins _ hjoin) rfl

-- The settings that are in force if nothing else is said set sort keys apart.
theorem query_sorts_apart_iff_default :
    let settings : Settings := {}
    settings.fault? = none ∧ settings.SortsApart ∧
      ∃ q s', (almanac settings).query (Compiler.trail "Has spouse" 2) [{ key := "" }] =
          (.ok q, s') ∧
        (⟨"result"⟩, ⟨"resultsk"⟩) ∈ q.condition.sorts ∧
        ∀ v key, (v, key) ∈ q.condition.sorts → key ≠ q.result ∧ key ∉ q.condition.everyJoin := by
  intro settings
  have hsettings : settings.fault? = none := by decide +kernel
  have hapart : settings.SortsApart := by
    refine ⟨⟨'s', by decide, by decide⟩, ?_⟩
    intro n _ heq
    have hlist := congrArg String.toList heq
    simp [settings] at hlist
  have hc := standard_almanac settings
  obtain ⟨hresult, hjoins⟩ := query_sorts_apart_iff hsettings
  obtain ⟨q, s', hquery, hkeys⟩ := hresult (almanac settings) hc rfl
    (Compiler.trail "Has spouse" 2) [{ key := "" }]
  obtain ⟨q', s'', hquery', hsorts, -⟩ := query_trail settings 2
  rw [hquery] at hquery'
  cases hquery'
  refine ⟨hsettings, hapart, q, s', hquery, hsorts, ?_⟩
  intro v key hkey
  exact ⟨(hkeys v key hkey).1,
    hjoins.mpr hapart (almanac settings) hc rfl _ _ q s' hquery v key hkey⟩

-- Settings are valid by which the sort key of the results is bound to the first fresh variable.
theorem query_sorts_captured :
    let settings : Settings := { stem := "v", result := "v", sortSuffix := "1" }
    settings.fault? = none ∧
      ∃ q s', (almanac settings).query (.someProperty { key := "Has spouse" } .thing)
          [{ key := "" }] = (.ok q, s') ∧
        (⟨"v"⟩, ⟨"v1"⟩) ∈ q.condition.sorts ∧ ⟨"v1"⟩ ∈ q.condition.everyJoin := by
  intro settings
  have hsettings : settings.fault? = none := by decide +kernel
  have hfirst : settings.stem ++ Text.decimal 1 = "v1" := by decide +kernel
  obtain ⟨q, s', hquery, hsorts, hjoins⟩ := query_trail settings 1
  refine ⟨hsettings, q, s', hquery, hsorts, ?_⟩
  rw [← hfirst]
  exact hjoins 1 (Nat.le_refl 1) (Nat.le_refl 1)

end Session

end WikiQuery
