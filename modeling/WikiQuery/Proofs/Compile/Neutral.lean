import Mathlib.Order.Monotone.Basic
import WikiQuery.Proofs.Compile.Parallel
import WikiQuery.Proofs.Compile.Unsorted
import WikiQuery.Proofs.Condition.Attachments
import WikiQuery.Proofs.Thinned

namespace WikiQuery

-- Numbers above one number are renumbered in their order: to numbers above another one, and as far
-- as they are within a third one to numbers within a fourth one.
structure Renumbers (f : Nat → Nat) (m m' n n' : Nat) : Prop where
  mono : StrictMono f
  above : ∀ i, m < i → n < f i
  within : ∀ i, i ≤ m' → f i ≤ n'

namespace Renumbers

variable {f : Nat → Nat} {m m₁ m' n n₁ n' : Nat}

theorem shift (h : m ≤ n) : Renumbers (· + (n - m)) m m n n where
  mono i j hij := by
    dsimp only
    omega
  above i hi := by omega
  within i hi := by omega

theorem skip (h : Renumbers f m m' n₁ n') (hn : n ≤ n₁) : Renumbers f m m' n n' where
  mono := h.mono
  above i hi := Nat.lt_of_le_of_lt hn (h.above i hi)
  within := h.within

-- A shift over a stretch of equally many numbers on both sides, and a renumbering behind it.
theorem extend (h : Renumbers f m₁ m' n₁ n') (hmn : m ≤ n) (hm : m ≤ m₁) (hn : n₁ ≤ n')
    (hstretch : n₁ + m = m₁ + n) :
    Renumbers (fun i => if i ≤ m₁ then i + (n - m) else f i) m m' n n' where
  mono i j hij := by
    dsimp only
    by_cases hj : j ≤ m₁
    · rw [if_pos hj, if_pos (by omega)]
      omega
    · have habove := h.above j (by omega)
      have hmono := h.mono hij
      rw [if_neg hj]
      by_cases hi : i ≤ m₁
      · rw [if_pos hi]
        omega
      · rwa [if_neg hi]
  above i hi := by
    by_cases hi₁ : i ≤ m₁
    · rw [if_pos hi₁]
      omega
    · have habove := h.above i (by omega)
      rw [if_neg hi₁]
      omega
  within i hi := by
    by_cases hi₁ : i ≤ m₁
    · rw [if_pos hi₁]
      omega
    · rw [if_neg hi₁]
      exact h.within i hi

end Renumbers

theorem Merge.absorb?_everything (m : Merge) (join : Variable) :
    m.absorb? join .everything = some m := by
  rw [absorb?_eq_some]
  simp [Condition.clauses, Condition.tests, Condition.everything, Condition.bound?,
    Attachments.merge_empty]

namespace Compiler

variable {c : Compiler} {keys : SortKeys} {path : List Page} {join : Variable}
  {target : Option SortTarget} {s s₁ s' t t₁ t' : Progress}

-- Nothing comes along with a part of a conjunction that everything fulfils.
theorem Compiles.eq_everything {d : Description} {b : Condition}
    (h : Compiles c keys path d join none s b s') (hform : b.form = .everything) :
    b = .everything := by
  have hnothing : b.isNothing = false := by
    rw [Condition.isNothing, hform]
  have hoffers : ∀ key v, ¬ b.Offers join none key v := by
    rintro key v (⟨t, ht, -⟩ | hgives)
    · cases ht
    · refine Condition.not_gives ?_ key v hgives
      simp [Condition.atoms_of_everything hform]
  have hsorts := h.sorts hnothing
  have hbare := (Condition.normal_of_everything hform).mp h.normal
  have hvariables : b.attachments.sortVariables = ∅ := by
    apply KeyMap.eq_empty_of_contains
    intro key
    rw [Bool.eq_false_iff, ne_eq, hsorts.recorded key]
    rintro ⟨-, v, hv⟩
    exact hoffers key v hv
  have hweak : b.attachments.weak = [] := by
    apply List.eq_nil_iff_forall_not_mem.mpr
    intro x hx
    obtain ⟨key, v, -, hv, -⟩ := hsorts.origin x hx
    exact hoffers key v hv
  obtain ⟨form, vocabularies, weak, sortVariables, safe⟩ := b
  obtain ⟨hvocabularies, hsafe⟩ := hbare
  cases hform
  cases hvariables
  cases hweak
  cases hvocabularies
  cases hsafe
  rfl

theorem Compiles.abreast (hc : c.Standard) {d : Description} {b b' : Condition}
    (h : Compiles c keys path d join target s b s')
    (h' : Compiles c keys path d join target t b' t') : Progress.Abreast s s' t t' := by
  obtain ⟨b₁, t₁, h₁, habreast, -⟩ := h.paralleled join t
  obtain ⟨-, rfl⟩ := h₁.unique hc h'
  exact habreast

-- Names that serve for two ways from a common table, of which the second one takes fewer numbers.
structure Renames (c : Compiler) (r : Correspondence) (join : Variable) (f : Nat → Nat)
    (n n' : Nat) : Prop where
  fits : r.Fits c.settings.sortSuffix
  join : r.entity join join
  fresh : ∀ i, n < i → i ≤ n' → r.entity (c.numbered (f i)) (c.numbered i)
  closure : ∀ id, r.closure id id

-- Conditions on one way, and their counterparts on a way that spares some numbers and ends with the
-- same table. No names change if no number is spared.
structure Spares (c : Compiler) (join : Variable) (f : Nat → Nat) (s s' t t' : Progress)
    (bs bs' : List Condition) : Prop where
  subqueries : s'.subqueries = t'.subqueries
  renumbers : Renumbers f t.counter t'.counter s.counter s'.counter
  lag : t'.counter + s.counter ≤ s'.counter + t.counter
  mirrors : ∀ r, c.Renames r join f t.counter t'.counter → List.Forall₂ (c.Mirrors r) bs bs'
  exact : s = t → s'.counter = t'.counter → bs = bs'

namespace Spares

variable {f : Nat → Nat} {b : Condition} {bs bs' : List Condition}

theorem nil (hle : t.counter ≤ s.counter) (htable : s.subqueries = t.subqueries) :
    c.Spares join (· + (s.counter - t.counter)) s s t t [] [] where
  subqueries := htable
  renumbers := .shift hle
  lag := by omega
  mirrors _ _ := .nil
  exact _ _ := rfl

-- A part that is left out takes numbers, and nothing else.
theorem skip (h : c.Spares join f s₁ s' t t' bs bs') (hle : s.counter ≤ s₁.counter)
    (htable : s₁.subqueries = s.subqueries) : c.Spares join f s s' t t' bs bs' where
  subqueries := h.subqueries
  renumbers := h.renumbers.skip hle
  lag := by
    have hlag := h.lag
    omega
  mirrors := h.mirrors
  exact := by
    rintro rfl hcounter
    have hlag := h.lag
    obtain ⟨counter, subqueries⟩ := s
    obtain ⟨counter₁, subqueries₁⟩ := s₁
    dsimp only at hlag hle htable
    obtain rfl : counter₁ = counter := by omega
    subst htable
    exact h.exact rfl hcounter

-- A part that stays takes equally many numbers on both ways.
theorem cons (hc : c.Standard) {part : Description} {b' : Condition}
    (hle : t.counter ≤ s.counter) (htable : s.subqueries = t.subqueries)
    (hb : Compiles c keys path part join target s b s₁)
    (hb' : Compiles c keys path part join target t b' t₁) (hs : s₁.counter ≤ s'.counter)
    (ht : t₁.counter ≤ t'.counter) (h : c.Spares join f s₁ s' t₁ t' bs bs') :
    c.Spares join (fun i => if i ≤ t₁.counter then i + (s.counter - t.counter) else f i) s s' t t'
      (b :: bs) (b' :: bs') where
  subqueries := h.subqueries
  renumbers := h.renumbers.extend hle hb'.numbers.le hs (hb.abreast hc hb').counter
  lag := by
    have hlag := h.lag
    have hcounter := (hb.abreast hc hb').counter
    omega
  mirrors := by
    intro r hr
    obtain ⟨b₁, u, hb₁, habreast, hmirror⟩ := hb.paralleled join t
    obtain ⟨rfl, rfl⟩ := hb₁.unique hc hb'
    have hcounter := habreast.counter
    have hnames : c.Names r join join s s₁ t u := by
      refine ⟨hr.fits, hr.join, ?_, ?_⟩
      · intro i hi hle'
        have hfresh := hr.fresh (t.counter + i) (by omega) (by omega)
        rwa [if_pos (by omega), show t.counter + i + (s.counter - t.counter) = s.counter + i by
          omega] at hfresh
      · rw [habreast.subqueries htable]
        exact fun _ _ _ => hr.closure _
    refine .cons (hmirror r hnames) (h.mirrors r ⟨hr.fits, hr.join, ?_, hr.closure⟩)
    intro i hi hi'
    have hle' := hb'.numbers.le
    have hfresh := hr.fresh i (by omega) hi'
    rwa [if_neg (by omega)] at hfresh
  exact := by
    rintro rfl hcounter
    obtain ⟨rfl, rfl⟩ := hb.unique hc hb'
    rw [h.exact rfl hcounter]

end Spares

-- Wherever a description is compiled, the table of sub-queries stays as it is.
def LeavesTable (c : Compiler) (keys : SortKeys) (path : List Page) (join : Variable)
    (target : Option SortTarget) (d : Description) : Prop :=
  ∀ s b s', Compiles c keys path d join target s b s' → s'.subqueries = s.subqueries

-- Wherever a description is compiled, no number is taken.
def LeavesCounter (c : Compiler) (keys : SortKeys) (path : List Page) (join : Variable)
    (target : Option SortTarget) (d : Description) : Prop :=
  ∀ s b s', Compiles c keys path d join target s b s' → s'.counter = s.counter

-- Without parts that leave the table as it is, all other parts compile as before but for the
-- numbers.
theorem chain_thinned (hc : c.Standard) {P : Description → Prop}
    (hP : ∀ part, P part → c.LeavesTable keys path join target part)
    {parts kept : List Description} (hthin : Thinned P parts kept) {bs : List Condition}
    (chain : Chain (c.Compiles keys path · join target) parts s bs s')
    (hle : t.counter ≤ s.counter) (htable : s.subqueries = t.subqueries) :
    ∃ f found bs' t',
      Thinned (fun b => ∃ part s s', P part ∧ c.Compiles keys path part join target s b s') bs
        found ∧
      Chain (c.Compiles keys path · join target) kept t bs' t' ∧
      c.Spares join f s s' t t' found bs' := by
  -- The second way starts behind the first one, since that has taken the numbers of the parts that
  -- were left out so far.
  induction hthin generalizing s t bs with
  | nil =>
    cases chain
    exact ⟨_, [], [], t, .nil, .nil, .nil hle htable⟩
  | keep part _ ih =>
    cases chain with
    | cons first rest =>
      obtain ⟨b', t₁, first', habreast, -⟩ := first.paralleled join t
      have hcounter := habreast.counter
      obtain ⟨f, found, bs', t', hfound, chain', hspares⟩ :=
        ih rest (t := t₁) (by omega) (habreast.subqueries htable)
      exact ⟨_, _ :: found, b' :: bs', t', .keep _ hfound, .cons first' chain',
        hspares.cons hc hle htable first first' (chain_counts rest) (chain_counts chain')⟩
  | drop hpart _ ih =>
    cases chain with
    | cons first rest =>
      have hle₁ := first.numbers.le
      have htable₁ := hP _ hpart _ _ _ first
      obtain ⟨f, found, bs', t', hfound, chain', hspares⟩ :=
        ih rest (t := t) (by omega) (htable₁.trans htable)
      exact ⟨f, found, bs', t', .drop ⟨_, _, _, hpart, first⟩ hfound, chain',
        hspares.skip hle₁ htable₁⟩

-- Parts that take no numbers can be left out without a change of the counter.
theorem counter_thinned (hc : c.Standard) {P : Description → Prop}
    (hP : ∀ part, P part → c.LeavesCounter keys path join target part)
    {parts kept : List Description} (hthin : Thinned P parts kept) {bs bs' : List Condition}
    (chain : Chain (c.Compiles keys path · join target) parts s bs s')
    (chain' : Chain (c.Compiles keys path · join target) kept t bs' t') :
    s'.counter + t.counter = t'.counter + s.counter := by
  induction hthin generalizing s t bs bs' with
  | nil =>
    cases chain
    cases chain'
    omega
  | keep part _ ih =>
    cases chain with
    | cons first rest =>
      cases chain' with
      | cons first' rest' =>
        have hfirst := (first.abreast hc first').counter
        have hrest := ih rest rest'
        omega
  | drop hpart _ ih =>
    cases chain with
    | cons first rest =>
      have hfirst := hP _ hpart _ _ _ first
      have hrest := ih rest chain'
      omega

-- The variables of two compilations on one variable, the first of which takes more numbers: that
-- variable itself, and the fresh variables in their order.
def Renumbered (c : Compiler) (root : Variable) (f : Nat → Nat) (n n' : Nat) (v w : Variable) :
    Prop :=
  (v = root ∧ w = root) ∨ ∃ i, n < i ∧ i ≤ n' ∧ v = c.numbered (f i) ∧ w = c.numbered i

-- The names of two such compilations, which refer to the same sub-queries.
def renumbering (c : Compiler) (root : Variable) (f : Nat → Nat) (n n' : Nat) : Correspondence where
  entity := c.Renumbered root f n n'
  sort x y := c.Renumbered root f n n' x y ∨ ∃ v w, c.Renumbered root f n n' v w ∧
    x = v.withSuffix c.settings.sortSuffix ∧ y = w.withSuffix c.settings.sortSuffix
  closure := Eq

theorem renames_renumbering {root : Variable} (hroot : ∀ k, root ≠ c.numbered k) {f : Nat → Nat}
    (hf : StrictMono f) (n n' : Nat) : c.Renames (c.renumbering root f n n') root f n n' where
  fits := by
    refine ⟨⟨?_, ?_⟩, fun h => .inl h, fun h => .inr ⟨_, _, h, rfl, rfl⟩⟩
    · rintro v v' w (⟨rfl, rfl⟩ | ⟨i, -, -, rfl, rfl⟩) (⟨rfl, hw⟩ | ⟨j, -, -, rfl, hw⟩)
      · rfl
      · exact absurd hw (hroot j)
      · exact absurd hw.symm (hroot i)
      · rw [numbered_injective hw]
    · rintro v w w' (⟨rfl, rfl⟩ | ⟨i, -, -, rfl, rfl⟩) (⟨hv, rfl⟩ | ⟨j, -, -, hv, rfl⟩)
      · rfl
      · exact absurd hv (hroot (f j))
      · exact absurd hv.symm (hroot (f i))
      · rw [hf.injective (numbered_injective hv)]
  join := .inl ⟨rfl, rfl⟩
  fresh i hi hi' := .inr ⟨i, hi, hi', rfl, rfl⟩
  closure _ := rfl

-- A compilation, and another one from the same start that leads to the same condition and table
-- but for the numbers. The condition is the same altogether if equally many numbers are taken.
structure Condensed (c : Compiler) (join : Variable) (s : Progress) (b : Condition) (s' : Progress)
    (b' : Condition) (t' : Progress) : Prop where
  subqueries : s'.subqueries = t'.subqueries
  renumbered : ∃ f, Renumbers f s.counter t'.counter s.counter s'.counter ∧
    b.Alike (c.renumbering join f s.counter t'.counter) b'
  exact : s'.counter = t'.counter → b = b'

theorem Condensed.rollback {b b' : Condition} (h : c.Condensed join s b s' b' t') (size : Nat) :
    c.Condensed join s b (s'.rollback size) b' (t'.rollback size) where
  subqueries := congrArg (·.truncate size) h.subqueries
  renumbered := h.renumbered
  exact := h.exact

-- What is made in the same way of conditions and of their counterparts.
theorem Spares.condensed {f : Nat → Nat} {bs bs' : List Condition} {b b' : Condition}
    (hjoin : ∀ k, join ≠ c.numbered k) (h : c.Spares join f s s' s t' bs bs')
    (hmirrors : ∀ r, r.Fits c.settings.sortSuffix → r.entity join join →
      List.Forall₂ (c.Mirrors r) bs bs' → c.Mirrors r b b')
    (hexact : bs = bs' → b = b') : c.Condensed join s b s' b' t' where
  subqueries := h.subqueries
  renumbered := by
    have hr := renames_renumbering hjoin h.renumbers.mono s.counter t'.counter
    exact ⟨f, h.renumbers, (hmirrors _ hr.fits hr.join (h.mirrors _ hr)).alike hr.fits⟩
  exact hcounter := hexact (h.exact rfl hcounter)

-- A compilation that stops at a part, and forgets what it registered, stops there as well without
-- some of the parts before it.
theorem stop_thinned (hc : c.Standard) (hjoin : ∀ k, join ≠ c.numbered k) {P : Description → Prop}
    (hP : ∀ part, P part → c.LeavesTable keys path join target part)
    {done kept : List Description} (hthin : Thinned P done kept) {bs : List Condition}
    (chain : Chain (c.Compiles keys path · join target) done s bs s₁)
    {part : Description} {b : Condition} (hpart : Compiles c keys path part join target s₁ b s') :
    ∃ bs' b' t₁ t', Chain (c.Compiles keys path · join target) kept s bs' t₁ ∧
      Compiles c keys path part join target t₁ b' t' ∧
      (∀ b, (∀ r, r.Fits c.settings.sortSuffix → r.entity join join → c.Mirrors r b b) →
        c.Condensed join s b (s'.rollback s.subqueries.size) b (t'.rollback s.subqueries.size)) ∧
      ((∀ part, P part → c.LeavesCounter keys path join target part) →
        s'.counter = t'.counter) := by
  have hthin := hthin.append (.keep part .nil)
  have chain := chain.append (.cons hpart .nil)
  obtain ⟨f, found, conditions, t', -, chain', hspares⟩ :=
    chain_thinned hc hP hthin chain (Nat.le_refl _) rfl
  obtain ⟨bs', b', t₁, rfl, hkept, hlast⟩ := chain'.exists_of_concat
  refine ⟨bs', b', t₁, t', hkept, hlast, ?_, ?_⟩
  · intro b hb
    have hcondensed : c.Condensed join s b s' b t' :=
      hspares.condensed hjoin (fun r hr hentity _ => hb r hr hentity) fun _ => rfl
    exact hcondensed.rollback _
  · intro hfree
    have hcounter := counter_thinned hc hfree hthin chain chain'
    omega

-- No part that nothing fulfils is found among the alternatives.
theorem disjunction_thinned (hc : c.Standard) (hjoin : ∀ k, join ≠ c.numbered k)
    {P : Description → Prop} (hP : ∀ part, P part → c.catalog.status path part = .never)
    {parts kept : List Description} (hthin : Thinned P parts kept) {b : Condition}
    (h : Compiles c keys path (.disjunction parts) join target s b s') :
    ∃ b' t', Compiles c keys path (.disjunction kept) join target s b' t' ∧
      c.Condensed join s b s' b' t' ∧
      ((∀ part, P part → c.LeavesCounter keys path join target part) →
        s'.counter = t'.counter) := by
  have hnothing : ∀ part s b s', P part → Compiles c keys path part join target s b s' →
      b.isNothing = true := by
    intro part s b s' hpart hb
    rw [← Condition.form_eq_nothing, ← Form.status_eq_never, hb.status, hP part hpart]
  have hunchanged : ∀ part, P part → c.LeavesTable keys path join target part :=
    fun part hpart s b s' hb =>
      hb.exactClosures.unchanged (.inr (hnothing part s b s' hpart hb))
  cases h with
  | @disjunction _ _ _ _ _ _ bs _ hR chain hconditions =>
    have chain := chain.imp hR
    obtain ⟨f, found, bs', t', hfound, chain', hspares⟩ :=
      chain_thinned hc hunchanged hthin chain (Nat.le_refl _) rfl
    have hconditions' := (chain_conditions chain').mpr fun part hpart =>
      (chain_conditions chain).mp hconditions part (hthin.subset hpart)
    have hfilter : bs.filter (!·.isNothing) = found.filter (!·.isNothing) := by
      refine hfound.filter_eq ?_
      rintro b ⟨part, s, s', hpart, hb⟩
      rw [hnothing part s b s' hpart hb]
      rfl
    refine ⟨_, t', .disjunction (fun _ _ _ _ h => h) chain' hconditions', ?_, ?_⟩
    · rw [hfilter]
      refine hspares.condensed hjoin ?_ ?_
      · intro r hr hentity hmirrors
        exact (Mirrors.alternativesCondition hr (filter_mirrors hmirrors)).attachSort hr hentity _ _
      · rintro rfl
        rfl
    · intro hfree
      have hcounter := counter_thinned hc hfree hthin chain chain'
      omega
  | @saturation _ _ _ _ s₁ s' done part rest bs b _ hR chain hconditions hpart heverything =>
    have chain := chain.imp hR
    have hkept : ¬ P part := by
      intro hdrop
      have hstatus := Condition.isEverything_iff_status.mp heverything
      rw [hpart.status, hP part hdrop] at hstatus
      cases hstatus
    obtain ⟨before, after, rfl, hbefore, -⟩ := hthin.exists_of_append hkept
    obtain ⟨bs', b', t₁, t', chain', hpart', hcondensed, hcounter⟩ :=
      stop_thinned hc hjoin hunchanged hbefore chain hpart
    have hconditions' := (chain_conditions chain').mpr fun part hpart =>
      (chain_conditions chain).mp hconditions part (hbefore.subset hpart)
    have heverything' := Condition.isEverything_iff_status.mp heverything
    rw [hpart.status, ← hpart'.status, ← Condition.isEverything_iff_status] at heverything'
    exact ⟨_, _, .saturation (fun _ _ _ _ h => h) chain' hconditions' hpart' heverything',
      hcondensed _ fun r hr hentity => .everything hr hentity target, hcounter⟩

-- Parts that everything fulfils do not decide whether others go together.
theorem compatible_thinned {P : Description → Prop}
    (hP : ∀ part, P part → c.catalog.status path part = .always)
    {parts kept : List Description} (hthin : Thinned P parts kept) {bs bs' : List Condition}
    (chain : Chain (c.Compiles keys path · join target) parts s bs s')
    (chain' : Chain (c.Compiles keys path · join target) kept t bs' t') :
    Condition.Compatible bs ↔ Condition.Compatible bs' := by
  have hstatuses : Thinned (· = .always) (bs.map (·.form.status)) (bs'.map (·.form.status)) := by
    rw [chain_status chain, chain_status chain']
    exact hthin.map hP
  have honly : ∀ i, .only i ∈ bs.map (·.form.status) ↔ .only i ∈ bs'.map (·.form.status) :=
    fun i => hstatuses.mem_iff (by simp)
  rw [Condition.compatible_iff_status, Condition.compatible_iff_status,
    hstatuses.mem_iff (by simp)]
  simp only [honly]

theorem merge_thinned {P : Description → Prop}
    (hP : ∀ part, P part → c.catalog.status path part = .always)
    {parts kept : List Description} (hthin : Thinned P parts kept) {bs bs' : List Condition}
    (chain : Chain (c.Compiles keys path · join target) parts s bs s')
    (chain' : Chain (c.Compiles keys path · join target) kept t bs' t') {merged : Merge}
    (hmerge : Merge.all? join bs = some merged) :
    Merge.all? join bs' = some (.gathered join bs') := by
  obtain ⟨hcompatible, -⟩ := Merge.all?_eq_some.mp hmerge
  exact Merge.all?_eq_some.mpr ⟨(compatible_thinned hP hthin chain chain').mp hcompatible, rfl⟩

-- No part that everything fulfils adds to what is merged.
theorem conjunction_thinned (hc : c.Standard) (hjoin : ∀ k, join ≠ c.numbered k)
    {P : Description → Prop} (hP : ∀ part, P part → c.catalog.status path part = .always)
    {parts kept : List Description} (hthin : Thinned P parts kept) (hlen : 2 ≤ kept.length)
    {b : Condition} (h : Compiles c keys path (.conjunction parts) join target s b s') :
    ∃ b' t', Compiles c keys path (.conjunction kept) join target s b' t' ∧
      c.Condensed join s b s' b' t' ∧
      ((∀ part, P part → c.LeavesCounter keys path join none part) → s'.counter = t'.counter) := by
  have heverything : ∀ part s b s', P part → Compiles c keys path part join none s b s' →
      b = .everything := by
    intro part s b s' hpart hb
    apply hb.eq_everything
    rw [← Form.status_eq_always, hb.status, hP part hpart]
  have hunchanged : ∀ part, P part → c.LeavesTable keys path join none part := by
    intro part hpart s b s' hb
    refine hb.exactClosures.unchanged (.inl ?_)
    rw [heverything part s b s' hpart hb]
    rfl
  have hlen' := Nat.le_trans hlen hthin.length_le
  cases h with
  | conjunctionNone => simp at hlen'
  | conjunctionOne _ => simp at hlen'
  | @conjunction _ _ _ _ _ _ bs merged _ _ hR chain hmerge =>
    have chain := chain.imp hR
    obtain ⟨f, found, bs', t', hfound, chain', hspares⟩ :=
      chain_thinned hc hunchanged hthin chain (Nat.le_refl _) rfl
    have hall : Merge.all? join bs = Merge.all? join found := by
      refine hfound.foldlM_eq ?_ ({} : Merge)
      rintro m b ⟨part, s, s', hpart, hb⟩
      rw [heverything part s b s' hpart hb]
      exact m.absorb?_everything join
    have hmerge' := merge_thinned hP hthin chain chain' hmerge
    refine ⟨_, t', .conjunction hlen (fun _ _ _ _ h => h) chain' hmerge', ?_, ?_⟩
    · refine hspares.condensed hjoin ?_ ?_
      · intro r hr hentity hmirrors
        have hmerged := Merge.Mirrors.all? hr hentity hmirrors
        rw [← hall, hmerge, hmerge'] at hmerged
        cases hmerged with
        | some hmerged => exact hmerged.finish.attachSort hr hentity _ _
      · rintro rfl
        rw [hall, hmerge'] at hmerge
        cases hmerge
        rfl
    · intro hfree
      have hcounter := counter_thinned hc hfree hthin chain chain'
      omega
  | @clash _ _ _ _ s₁ s' done part rest bs b merged _ _ hR chain hmerge hpart hclash =>
    have chain := chain.imp hR
    have hkept : ¬ P part := by
      intro hdrop
      rw [heverything _ _ _ _ hdrop hpart, merged.absorb?_everything join] at hclash
      cases hclash
    obtain ⟨before, after, rfl, hbefore, -⟩ := hthin.exists_of_append hkept
    obtain ⟨bs', b', t₁, t', chain', hpart', hcondensed, hcounter⟩ :=
      stop_thinned hc hjoin hunchanged hbefore chain hpart
    have hmerge' := merge_thinned hP hbefore chain chain' hmerge
    have hclash' : Merge.all? join (bs' ++ [b']) = none := by
      rw [Merge.all?_eq_none, ← compatible_thinned hP (hbefore.append (.keep part .nil))
        (chain.append (.cons hpart .nil)) (chain'.append (.cons hpart' .nil)), ← Merge.all?_eq_none,
        Merge.all?_concat, hmerge]
      exact hclash
    rw [Merge.all?_concat, hmerge'] at hclash'
    exact ⟨_, _, .clash hlen (fun _ _ _ _ h => h) chain' hmerge' hpart' hclash',
      hcondensed _ fun r _ _ => .of_form .nothing, hcounter⟩

-- From some work, and so from all work, a description compiles to a condition of a form.
def ComesTo (c : Compiler) (keys : SortKeys) (path : List Page) (join : Variable)
    (target : Option SortTarget) (form : Form Condition) (d : Description) : Prop :=
  ∃ w b w', (c.compile keys path d join target).run.run w = (.ok b, w') ∧ b.form = form

-- From some work, and so from all work, a description compiles without a fresh variable.
def TakesNone (c : Compiler) (keys : SortKeys) (path : List Page) (join : Variable)
    (target : Option SortTarget) (d : Description) : Prop :=
  ∃ w b w', (c.compile keys path d join target).run.run w = (.ok b, w') ∧ w'.counter = w.counter

theorem comesTo_iff (hc : c.Standard) {form : Form Condition} {status : Status}
    (hform : ∀ {form' : Form Condition}, form'.status = status ↔ form' = form) {d : Description} :
    c.ComesTo keys path join target form d ↔ c.catalog.status path d = status := by
  constructor
  · rintro ⟨w, b, w', hrun, hb⟩
    obtain ⟨b₁, w₁, hrun₁, h⟩ := compile_run hc path d join target w
    rw [hrun] at hrun₁
    cases hrun₁
    rw [← h.status]
    exact hform.mpr hb
  · intro hstatus
    obtain ⟨b, w', hrun, h⟩ := compile_run hc path d join target ({} : Work)
    exact ⟨_, b, w', hrun, hform.mp (h.status.trans hstatus)⟩

theorem TakesNone.leavesCounter (hc : c.Standard) {d : Description}
    (hnone : c.TakesNone keys path join target d) : c.LeavesCounter keys path join target d := by
  intro s b s' h
  obtain ⟨w, b₁, w', hrun, hcounter⟩ := hnone
  obtain ⟨b₂, w₂, hrun₂, h₂⟩ := compile_run hc path d join target w
  rw [hrun] at hrun₂
  cases hrun₂
  have habreast := (h.abreast hc h₂).counter
  unfold Work.progress at habreast
  dsimp only at habreast
  omega

-- Two descriptions run as they compile by the rules.
theorem condensed_runs (hc : c.Standard) {d d' : Description} {free : Prop} (w : Work)
    (hd : ∀ b s', Compiles c keys path d join target w.progress b s' →
      ∃ b' t', Compiles c keys path d' join target w.progress b' t' ∧
        c.Condensed join w.progress b s' b' t')
    (hfree : free → ∀ b s', Compiles c keys path d join target w.progress b s' →
      ∃ b' t', Compiles c keys path d' join target w.progress b' t' ∧ s'.counter = t'.counter) :
    ∃ b b' u u', (c.compile keys path d join target).run.run w = (.ok b, u) ∧
      (c.compile keys path d' join target).run.run w = (.ok b', u') ∧
      c.Condensed join w.progress b u.progress b' u'.progress ∧
      (free → u.counter = u'.counter ∧ b = b') := by
  obtain ⟨b, u, hrun, h⟩ := compile_run hc path d join target w
  obtain ⟨b', t', h', hcondensed⟩ := hd b u.progress h
  obtain ⟨u', hrun', rfl⟩ := h'.runs hc w rfl
  refine ⟨b, b', u, u', hrun, hrun', hcondensed, ?_⟩
  intro hholds
  obtain ⟨b₁, t₁, h₁, hcounter⟩ := hfree hholds b u.progress h
  obtain ⟨-, rfl⟩ := h'.unique hc h₁
  exact ⟨hcounter, hcondensed.exact hcounter⟩

-- Parts that nothing fulfils can be left out of a disjunction, and parts that everything fulfils
-- out of a conjunction: what is compiled stays the same, with all that goes along with it and with
-- the same sub-queries, but for the numbers of the fresh variables. These stay the same as well if
-- the parts that are left out have no fresh variables.
theorem compile_thinned (c : Compiler) (hc : c.Standard) (keys : SortKeys) (path : List Page)
    (join : Variable) (hjoin : ∀ k, join ≠ c.numbered k) (target : Option SortTarget) (w : Work)
    (parts kept : List Description) :
    (Thinned (c.ComesTo keys path join target .nothing) parts kept → ∃ b b' u u',
      (c.compile keys path (.disjunction parts) join target).run.run w = (.ok b, u) ∧
      (c.compile keys path (.disjunction kept) join target).run.run w = (.ok b', u') ∧
      c.Condensed join w.progress b u.progress b' u'.progress ∧
      (Thinned (fun part => c.ComesTo keys path join target .nothing part ∧
          c.TakesNone keys path join target part) parts kept →
        u.counter = u'.counter ∧ b = b')) ∧
    (2 ≤ kept.length → Thinned (c.ComesTo keys path join none .everything) parts kept → ∃ b b' u u',
      (c.compile keys path (.conjunction parts) join target).run.run w = (.ok b, u) ∧
      (c.compile keys path (.conjunction kept) join target).run.run w = (.ok b', u') ∧
      c.Condensed join w.progress b u.progress b' u'.progress ∧
      (Thinned (fun part => c.ComesTo keys path join none .everything part ∧
          c.TakesNone keys path join none part) parts kept →
        u.counter = u'.counter ∧ b = b')) := by
  have hnever : ∀ part, c.ComesTo keys path join target .nothing part →
      c.catalog.status path part = .never := fun _ => (comesTo_iff hc Form.status_eq_never).mp
  have halways : ∀ part, c.ComesTo keys path join none .everything part →
      c.catalog.status path part = .always := fun _ => (comesTo_iff hc Form.status_eq_always).mp
  constructor
  · intro hthin
    apply condensed_runs hc w
    · intro b s' h
      obtain ⟨b', t', h', hcondensed, -⟩ := disjunction_thinned hc hjoin hnever hthin h
      exact ⟨b', t', h', hcondensed⟩
    · intro hfree b s' h
      obtain ⟨b', t', h', -, hcounter⟩ :=
        disjunction_thinned hc hjoin (fun part hpart => hnever part hpart.1) hfree h
      exact ⟨b', t', h', hcounter fun _ hpart => hpart.2.leavesCounter hc⟩
  · intro hlen hthin
    apply condensed_runs hc w
    · intro b s' h
      obtain ⟨b', t', h', hcondensed, -⟩ := conjunction_thinned hc hjoin halways hthin hlen h
      exact ⟨b', t', h', hcondensed⟩
    · intro hfree b s' h
      obtain ⟨b', t', h', -, hcounter⟩ :=
        conjunction_thinned hc hjoin (fun part hpart => halways part hpart.1) hfree hlen h
      exact ⟨b', t', h', hcounter fun _ hpart => hpart.2.leavesCounter hc⟩

-- The branch that is left out takes two fresh variables before it is found that nothing fulfils it.
-- The part that is left out of the conjunction takes none.
theorem compile_thinned_capitals :
    let catalog := (({} : Catalog).addProperty "Has capital" .page).addCategory ⟨"City", 14⟩ 3
    let c : Compiler := { catalog }
    let keys := SortKeys.ofRequests [{ key := "Has capital" }]
    let village : Description := .someProperty { key := "Has capital" }
      (.someProperty { key := "Has capital" } (.inCategory [⟨"Village", 14⟩]))
    let kept : List Description :=
      [.someProperty { key := "Has capital" } (.inCategory [⟨"City", 14⟩]), .inNamespace 0]
    c.Standard ∧ (∀ k, (⟨"result"⟩ : Variable) ≠ c.numbered k) ∧
      (∃ b b' u u',
        (c.compile keys [] (.disjunction (village :: kept)) ⟨"result"⟩ none).run.run {} =
          (.ok b, u) ∧
        (c.compile keys [] (.disjunction kept) ⟨"result"⟩ none).run.run {} = (.ok b', u') ∧
        c.Condensed ⟨"result"⟩ {} b u.progress b' u'.progress) ∧
      ∃ b u u', (c.compile keys [] (.conjunction (.thing :: kept)) ⟨"result"⟩ none).run.run {} =
          (.ok b, u) ∧
        (c.compile keys [] (.conjunction kept) ⟨"result"⟩ none).run.run {} = (.ok b, u') ∧
        u.counter = u'.counter := by
  intro catalog c keys village kept
  have hc : c.Standard := standard_of_builders rfl
  have hsettings : c.settings.fault? = none := by decide +kernel
  have hjoin : ∀ k, (⟨"result"⟩ : Variable) ≠ c.numbered k := result_ne_numbered hsettings
  have hkept : ∀ {P : Description → Prop}, Thinned P kept kept := .keep _ (.keep _ .nil)
  have hvillage : c.ComesTo keys [] ⟨"result"⟩ none .nothing village := by
    have hunknown : c.catalog.status [] (.inCategory [⟨"Village", 14⟩]) = .never := by
      rw [Catalog.status]
      decide +kernel
    rw [comesTo_iff hc Form.status_eq_never, Catalog.status, Catalog.status, hunknown]
    simp
  have hthing : c.ComesTo keys [] ⟨"result"⟩ none .everything .thing := by
    rw [comesTo_iff hc Form.status_eq_always, Catalog.status]
  have hnone : c.TakesNone keys [] ⟨"result"⟩ none .thing := by
    obtain ⟨w', hrun, hprogress⟩ := (Compiles.thing (c := c)).runs hc {} rfl
    exact ⟨{}, _, w', hrun, congrArg Progress.counter hprogress⟩
  obtain ⟨hdisjunction, -⟩ :=
    compile_thinned c hc keys [] ⟨"result"⟩ hjoin none {} (village :: kept) kept
  obtain ⟨b, b', u, u', hrun, hrun', hcondensed, -⟩ := hdisjunction (.drop hvillage hkept)
  obtain ⟨-, hconjunction⟩ :=
    compile_thinned c hc keys [] ⟨"result"⟩ hjoin none {} (.thing :: kept) kept
  obtain ⟨d, d', v, v', hrun₁, hrun₁', -, hexact⟩ :=
    hconjunction (Nat.le_refl 2) (.drop hthing hkept)
  obtain ⟨hcounter, rfl⟩ := hexact (.drop ⟨hthing, hnone⟩ hkept)
  exact ⟨hc, hjoin, ⟨b, b', u, u', hrun, hrun', hcondensed⟩, d, v, v', hrun₁, hrun₁', hcounter⟩

end Compiler

end WikiQuery
