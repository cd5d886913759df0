import WikiQuery.Proofs.Compile.Closures
import WikiQuery.Proofs.Compile.Mirror
import WikiQuery.Proofs.Compile.Status
import WikiQuery.Proofs.Condition.Compatible

namespace WikiQuery

namespace SubqueryTable

variable {t t' : SubqueryTable} {q : Subquery}

theorem mem_register (t : SubqueryTable) (q : Subquery) : q ∈ (t.register q).2.entries :=
  List.mem_of_getElem? (t.register_cases q).2.1

-- A sub-query that a table has is found at the same place when the table has grown.
theorem register_of_grown (hq : q ∈ t.entries) (h : t.entries <+: t'.entries) :
    (t'.register q).1 = (t.register q).1 := by
  obtain ⟨added, hadded⟩ := h
  cases hi : t.entries.idxOf? q with
  | none => exact absurd hq (List.idxOf?_eq_none_iff.mp hi)
  | some i =>
    have hi' : t'.entries.idxOf? q = some i := by
      rw [← hadded, List.idxOf?, List.findIdx?_append]
      exact congrArg (Option.or · _) hi
    rw [register, register, hi, hi']

theorem register_again (t : SubqueryTable) (q : Subquery) :
    ((t.register q).2.register q).1 = (t.register q).1 := by
  by_cases hq : q ∈ t.entries
  · exact register_of_grown hq (t.register_cases q).1
  · have hnone : t.entries.idxOf? q = none := List.idxOf?_eq_none_iff.mpr hq
    have hlast : (t.entries ++ [q]).idxOf? q = some t.entries.length := by
      have hbefore : t.entries.findIdx? (· == q) = none := hnone
      rw [List.idxOf?, List.findIdx?_append, hbefore]
      simp
    rw [register_of_notMem hq, register, hlast]
    rfl

end SubqueryTable

namespace Correspondence

variable {r : Correspondence} {t t' T T' : SubqueryTable}

-- Of the sub-queries that both tables have, the references correspond.
def Links (r : Correspondence) (t t' : SubqueryTable) : Prop :=
  ∀ q ∈ t.entries, q ∈ t'.entries → r.closure (t.register q).1 (t'.register q).1

theorem Links.before (h : r.Links T T') (ht : t.entries <+: T.entries)
    (ht' : t'.entries <+: T'.entries) : r.Links t t' := by
  intro q hq hq'
  rw [← SubqueryTable.register_of_grown hq ht, ← SubqueryTable.register_of_grown hq' ht']
  exact h q (ht.subset hq) (ht'.subset hq')

end Correspondence

namespace Progress

variable {s s₁ s' t t₁ t' : Progress}

-- Two ways that introduce equally many variables, and lead from a common table to a common one.
structure Abreast (s s' t t' : Progress) : Prop where
  counter : s'.counter + t.counter = t'.counter + s.counter
  subqueries : s.subqueries = t.subqueries → s'.subqueries = t'.subqueries

theorem Abreast.refl (s t : Progress) : Abreast s s t t :=
  ⟨Nat.add_comm .., id⟩

theorem Abreast.trans (h : Abreast s s₁ t t₁) (h' : Abreast s₁ s' t₁ t') : Abreast s s' t t' where
  counter := by
    have hfirst := h.counter
    have hsecond := h'.counter
    omega
  subqueries htable := h'.subqueries (h.subqueries htable)

-- Where what was registered on the way is forgotten, the tables are those of the start.
theorem Abreast.rollback (h : Abreast s s' t t')
    (hs : s.subqueries.entries <+: s'.subqueries.entries)
    (ht : t.subqueries.entries <+: t'.subqueries.entries) :
    Abreast s (s'.rollback s.subqueries.size) t (t'.rollback t.subqueries.size) where
  counter := h.counter
  subqueries htable := by
    unfold Progress.rollback
    dsimp only
    rw [SubqueryTable.truncate_grown hs, SubqueryTable.truncate_grown ht, htable]

theorem abreast_close {depth : UInt32} {q : Subquery} {closure closure' : Option SubqueryId}
    (hs : s.close depth q = (closure, s₁)) (ht : t.close depth q = (closure', t₁)) :
    Abreast s s₁ t t₁ where
  counter := by
    rw [counter_close hs, counter_close ht, Nat.add_comm]
  subqueries htable := by
    rcases close_cases hs with ⟨hdepth, -, rfl⟩ | ⟨hsome, rfl⟩ <;>
      rcases close_cases ht with ⟨hdepth', -, rfl⟩ | ⟨hsome', rfl⟩
    · exact htable
    · simp [close, hdepth, hsome'] at ht
    · simp [close, hdepth', hsome] at hs
    · dsimp only
      rw [htable]

theorem rel_close {r : Correspondence} {depth : UInt32} {q : Subquery}
    {closure closure' : Option SubqueryId} (hs : s.close depth q = (closure, s₁))
    (ht : t.close depth q = (closure', t₁)) (hlinks : r.Links s₁.subqueries t₁.subqueries) :
    Option.Rel r.closure closure closure' := by
  unfold close at hs ht
  by_cases hdepth : depth = 0
  · simp only [hdepth, ite_true, Prod.mk.injEq] at hs ht
    rw [← hs.1, ← ht.1]
    exact .none
  · simp only [hdepth, ite_false, Prod.mk.injEq] at hs ht
    obtain ⟨rfl, rfl⟩ := hs
    obtain ⟨rfl, rfl⟩ := ht
    have hclosure := hlinks q (s.subqueries.mem_register q) (t.subqueries.mem_register q)
    rw [SubqueryTable.register_again, SubqueryTable.register_again] at hclosure
    exact .some hclosure

end Progress

namespace Condition

-- Whether conditions can be merged is told by their statuses.
theorem compatible_iff_status {conditions : List Condition} :
    Compatible conditions ↔ .never ∉ conditions.map (·.form.status) ∧
      ∀ i j, .only i ∈ conditions.map (·.form.status) → .only j ∈ conditions.map (·.form.status) →
        i = j := by
  simp only [List.mem_map]
  constructor
  · intro h
    constructor
    · rintro ⟨c, hc, hstatus⟩
      exact h.possible c hc (Form.status_eq_never.mp hstatus)
    · rintro i j ⟨c, hc, hi⟩ ⟨d, hd, hj⟩
      obtain ⟨r, hr, rfl⟩ := status_eq_only.mp hi
      obtain ⟨t, ht, rfl⟩ := status_eq_only.mp hj
      exact h.agree c hc d hd r t hr ht
  · rintro ⟨hpossible, hagree⟩
    constructor
    · intro c hc hform
      exact hpossible ⟨c, hc, Form.status_eq_never.mpr hform⟩
    · intro c hc d hd r t hr ht
      exact hagree _ _ ⟨c, hc, status_eq_only.mpr ⟨r, hr, rfl⟩⟩
        ⟨d, hd, status_eq_only.mpr ⟨t, ht, rfl⟩⟩

variable {b b' : Condition} {bs bs' : List Condition}

theorem toPattern?_none_congr {v w : Variable} (h : b.form.status = b'.form.status) :
    b.toPattern? v = none ↔ b'.toPattern? w = none := by
  rw [toPattern?_eq_none, toPattern?_eq_none, ← Form.status_eq_never, ← Form.status_eq_never, h]

theorem isEverything_iff_status : b.isEverything = true ↔ b.form.status = .always := by
  rw [← form_eq_everything, Form.status_eq_always]

end Condition

theorem Merge.all?_none_congr {v w : Variable} {bs bs' : List Condition}
    (h : bs.map (·.form.status) = bs'.map (·.form.status)) :
    all? v bs = none ↔ all? w bs' = none := by
  rw [all?_eq_none, all?_eq_none, Condition.compatible_iff_status, Condition.compatible_iff_status,
    h]

namespace Compiler

variable {c : Compiler} {keys : SortKeys} {path : List Page} {target : Option SortTarget}
  {r : Correspondence} {v w : Variable} {s s₁ s' t t₁ t' : Progress}

-- Names that serve for two ways side by side: those of the variables that they are about, of the
-- fresh variables in the order in which they come, and of the sub-queries in the tables at the end.
structure Names (c : Compiler) (r : Correspondence) (v w : Variable) (s s' t t' : Progress) :
    Prop where
  fits : r.Fits c.settings.sortSuffix
  entity : r.entity v w
  fresh : ∀ i, 1 ≤ i → s.counter + i ≤ s'.counter →
    r.entity (c.numbered (s.counter + i)) (c.numbered (t.counter + i))
  links : r.Links s'.subqueries t'.subqueries

namespace Names

theorem before (h : c.Names r v w s s' t t') (hle : s₁.counter ≤ s'.counter)
    (hs : s₁.subqueries.entries <+: s'.subqueries.entries)
    (ht : t₁.subqueries.entries <+: t'.subqueries.entries) : c.Names r v w s s₁ t t₁ where
  fits := h.fits
  entity := h.entity
  fresh i hi hle' := h.fresh i hi (Nat.le_trans hle' hle)
  links := h.links.before hs ht

theorem behind {v' w' : Variable} (h : c.Names r v w s s' t t') (hle : s.counter ≤ s₁.counter)
    (habreast : Progress.Abreast s s₁ t t₁) (hentity : r.entity v' w') :
    c.Names r v' w' s₁ s' t₁ t' where
  fits := h.fits
  entity := hentity
  fresh i hi hle' := by
    have hcounter := habreast.counter
    have hfresh := h.fresh (s₁.counter - s.counter + i) (by omega) (by omega)
    rwa [show s.counter + (s₁.counter - s.counter + i) = s₁.counter + i by omega,
      show t.counter + (s₁.counter - s.counter + i) = t₁.counter + i by omega] at hfresh
  links := h.links

end Names

-- From anywhere and on any variable, a second compilation goes side by side with a first one, and
-- its condition mirrors that of the first one in all names that serve for the two.
def Paralleled (c : Compiler) (keys : SortKeys) (path : List Page) (d : Description) (v : Variable)
    (target : Option SortTarget) (s : Progress) (b : Condition) (s' : Progress) : Prop :=
  ∀ w t, ∃ b' t', Compiles c keys path d w target t b' t' ∧ Progress.Abreast s s' t t' ∧
    ∀ r, c.Names r v w s s' t t' → c.Mirrors r b b'

-- A property begins with clauses that are alike, about variables that correspond.
theorem opening_parallel {p : Property} {info : PropertyInfo} {clause : Clause} {u : Variable}
    (hs : c.opening v p info s = ((clause, u), s₁)) (w : Variable) (t : Progress) :
    ∃ clause' u' t₁, c.opening w p info t = ((clause', u'), t₁) ∧ Progress.Abreast s s₁ t t₁ ∧
      ∀ r, c.Names r v w s s₁ t t₁ → r.entity u u' ∧ clause.Alike r clause' := by
  cases ht : c.opening w p info t with
  | mk start t₁ =>
    obtain ⟨clause', u'⟩ := start
    refine ⟨clause', u', t₁, rfl, ?_⟩
    obtain ⟨closure, s₀, hclose, hcases⟩ := opening_cases hs
    obtain ⟨closure', t₀, hclose', hcases'⟩ := opening_cases ht
    have hcounter := Progress.counter_close hclose
    have hcounter' := Progress.counter_close hclose'
    have habreast := Progress.abreast_close hclose hclose'
    rcases hcases with ⟨hpage, rfl, rfl, rfl⟩ | ⟨hpage, rfl, rfl, rfl⟩ <;>
      rcases hcases' with ⟨hpage', rfl, rfl, rfl⟩ | ⟨hpage', rfl, rfl, rfl⟩
    · refine ⟨⟨?_, habreast.subqueries⟩, ?_⟩
      · dsimp only
        omega
      · intro r hr
        have hfresh := hr.fresh 1 (Nat.le_refl 1) (by dsimp only; omega)
        rw [← hcounter, ← hcounter'] at hfresh
        have hclosure := Progress.rel_close hclose hclose' hr.links
        refine ⟨hfresh, ?_⟩
        unfold link
        cases p.inverse with
        | true => exact .triple p (.entity hfresh) (.entity hr.entity) hclosure
        | false => exact .triple p (.entity hr.entity) (.entity hfresh) hclosure
    · rw [hpage] at hpage'
      cases hpage'
    · rw [hpage] at hpage'
      cases hpage'
    · refine ⟨habreast, ?_⟩
      intro r hr
      exact ⟨hr.entity, .hasValue p hr.entity (Progress.rel_close hclose hclose' hr.links)⟩

theorem chain_grows {parts : List Description} {bs : List Condition}
    (chain : Chain (c.Compiles keys path · v target) parts s bs s') :
    s.subqueries.entries <+: s'.subqueries.entries :=
  (trace_gains.chain (chain.imp fun _ _ _ _ h => h.gains)).grows

theorem chain_counts {parts : List Description} {bs : List Condition}
    (chain : Chain (c.Compiles keys path · v target) parts s bs s') :
    s.counter ≤ s'.counter :=
  (trace_numbers.chain (chain.imp fun _ _ _ _ h => h.numbers)).le

theorem chain_parallel {R : Description → Progress → Condition → Progress → Prop}
    {parts : List Description} {bs : List Condition}
    (hR : ∀ part s b s', R part s b s' → Compiles c keys path part v target s b s')
    (parallel : ∀ part s b s', R part s b s' → c.Paralleled keys path part v target s b s')
    (chain : Chain R parts s bs s') (w : Variable) (t : Progress) :
    ∃ bs' t', Chain (c.Compiles keys path · w target) parts t bs' t' ∧
      Progress.Abreast s s' t t' ∧
      ∀ r, c.Names r v w s s' t t' → List.Forall₂ (c.Mirrors r) bs bs' := by
  induction chain generalizing t with
  | @nil s => exact ⟨[], t, .nil, .refl s t, fun _ _ => .nil⟩
  | cons first rest ih =>
    obtain ⟨b', t₁, hfirst, habreast, hmirror⟩ := parallel _ _ _ _ first w t
    obtain ⟨bs', t', chain', habreast', hrest⟩ := ih t₁
    refine ⟨b' :: bs', t', .cons hfirst chain', habreast.trans habreast', ?_⟩
    intro r hr
    have hrest' := rest.imp hR
    exact .cons (hmirror r (hr.before (chain_counts hrest') (chain_grows hrest')
        (chain_grows chain')))
      (hrest r (hr.behind (hR _ _ _ _ first).numbers.le habreast hr.entity))

theorem chain_status {parts : List Description} {bs : List Condition}
    (chain : Chain (c.Compiles keys path · v target) parts s bs s') :
    bs.map (·.form.status) = parts.map (c.catalog.status path) :=
  chain.map_result fun _ _ _ _ h => h.status

theorem chain_conditions {parts : List Description} {bs : List Condition}
    (chain : Chain (c.Compiles keys path · v target) parts s bs s') :
    (∀ b ∈ bs, b.isEverything = false) ↔ ∀ part ∈ parts, c.catalog.status path part ≠ .always := by
  refine chain.forall_iff ?_
  intro part s b s' h
  rw [Bool.eq_false_iff, ne_eq, Condition.isEverything_iff_status, h.status]

-- Every compilation can be gone along with: what it drops is dropped again, since that is told by
-- the statuses of the descriptions.
theorem Compiles.paralleled {d : Description} {b : Condition}
    (h : Compiles c keys path d v target s b s') :
    c.Paralleled keys path d v target s b s' := by
  induction h with
  | @thing path v target s =>
    intro w t
    exact ⟨_, t, .thing, .refl s t, fun r hr => .everything hr.fits hr.entity target⟩
  | @inNamespace path v target s number =>
    intro w t
    exact ⟨_, t, .inNamespace number, .refl s t,
      fun r hr => .namespaceCondition hr.fits hr.entity target number⟩
  | @noCategory path v target s categories hnone =>
    intro w t
    exact ⟨_, t, .noCategory hnone, .refl s t, fun r _ => .of_form .nothing⟩
  | @inCategory _ v target s s' categories closure hsome hclose =>
    intro w t
    cases hclose' : t.close c.settings.categoryDepth
      (.categories (c.catalog.known categories) c.settings.categoryDepth) with
    | mk closure' t' =>
      refine ⟨_, t', .inCategory hsome hclose', Progress.abreast_close hclose hclose', ?_⟩
      intro r hr
      exact .categoryCondition hr.fits hr.entity target _
        (Progress.rel_close hclose hclose' hr.links)
  | @noConcept path v target s page hnone =>
    intro w t
    exact ⟨_, t, .noConcept hnone, .refl s t, fun r _ => .of_form .nothing⟩
  | concept hsome _ ih =>
    intro w t
    obtain ⟨b', t', hcompiles, habreast, hmirror⟩ := ih w t
    exact ⟨b', t', .concept hsome hcompiles, habreast, hmirror⟩
  | @value path v target s p comparator x =>
    intro w t
    exact ⟨_, t, .value p comparator x, .refl s t,
      fun r hr => .comparedCondition hr.fits hr.entity target p comparator x⟩
  | @noProperty path v target s p inner hnone =>
    intro w t
    exact ⟨_, t, .noProperty hnone, .refl s t, fun r _ => .of_form .nothing⟩
  | @someProperty _ v target s s₁ s' p inner info clause u b group hp hopen hinner hgroup ih =>
    intro w t
    obtain ⟨clause', u', t₁, hopen', habreast, hclause⟩ := opening_parallel hopen w t
    obtain ⟨b', t', hinner', habreast', hmirror⟩ := ih u' t₁
    cases hgroup' : b'.toPattern? u' with
    | none =>
      have hnone := (Condition.toPattern?_none_congr (w := u)
        (hinner'.status.trans hinner.status.symm)).mp hgroup'
      rw [hgroup] at hnone
      cases hnone
    | some group' =>
      refine ⟨_, t', .someProperty hp hopen' hinner' hgroup', habreast.trans habreast', ?_⟩
      intro r hr
      obtain ⟨hu, halike⟩ := hclause r
        (hr.before hinner.numbers.le hinner.gains.grows hinner'.gains.grows)
      have hb := hmirror r (hr.behind (Numbers.of_opening hopen).le habreast hu)
      have hgroups := Condition.toPattern?_alike hu hb.form
      rw [hgroup, hgroup'] at hgroups
      cases hgroups with
      | some hgroups => exact .propertyCondition hr.fits hr.entity target p halike hb hgroups
  | @emptyProperty _ v target s s₁ s' p inner info clause u b hp hopen hinner hgroup ih =>
    intro w t
    obtain ⟨clause', u', t₁, hopen', habreast, -⟩ := opening_parallel hopen w t
    obtain ⟨b', t', hinner', habreast', -⟩ := ih u' t₁
    have hgroup' := (Condition.toPattern?_none_congr (w := u')
      (hinner.status.trans hinner'.status.symm)).mp hgroup
    have hgrown := (Gains.of_opening hp hopen).grows.trans hinner.gains.grows
    have hgrown' := (Gains.of_opening hp hopen').grows.trans hinner'.gains.grows
    exact ⟨_, _, .emptyProperty hp hopen' hinner' hgroup',
      (habreast.trans habreast').rollback hgrown hgrown', fun r _ => .of_form .nothing⟩
  | @conjunctionNone path v target s =>
    intro w t
    exact ⟨_, t, .conjunctionNone, .refl s t, fun r hr => .everything hr.fits hr.entity target⟩
  | conjunctionOne _ ih =>
    intro w t
    obtain ⟨b', t', hcompiles, habreast, hmirror⟩ := ih w t
    exact ⟨b', t', .conjunctionOne hcompiles, habreast, hmirror⟩
  | conjunction hlen hR chain hmerge ih =>
    intro w t
    obtain ⟨bs', t', chain', habreast, hmirror⟩ := chain_parallel hR ih chain w t
    have hstatus := (chain_status (chain.imp hR)).trans (chain_status chain').symm
    cases hmerge' : Merge.all? w bs' with
    | none =>
      rw [(Merge.all?_none_congr hstatus).mpr hmerge'] at hmerge
      cases hmerge
    | some merged' =>
      refine ⟨_, t', .conjunction hlen (fun _ _ _ _ h => h) chain' hmerge', habreast, ?_⟩
      intro r hr
      have hmerged := Merge.Mirrors.all? hr.fits hr.entity (hmirror r hr)
      rw [hmerge, hmerge'] at hmerged
      cases hmerged with
      | some hmerged => exact hmerged.finish.attachSort hr.fits hr.entity _ _
  | @clash _ v _ s s₁ s' done part rest bs b merged R hlen hR chain hmerge hpart hclash ih ihpart =>
    intro w t
    obtain ⟨bs', t₁, chain', habreast, -⟩ := chain_parallel hR ih chain w t
    obtain ⟨b', t', hpart', habreast', -⟩ := ihpart w t₁
    have hstatus := (chain_status (chain.imp hR)).trans (chain_status chain').symm
    have hstatus' : (bs ++ [b]).map (·.form.status) = (bs' ++ [b']).map (·.form.status) := by
      rw [List.map_append, List.map_append, hstatus, List.map_singleton, List.map_singleton,
        hpart.status, hpart'.status]
    have hnone : Merge.all? v (bs ++ [b]) = none := by
      rw [Merge.all?_concat, hmerge]
      exact hclash
    cases hmerge' : Merge.all? w bs' with
    | none =>
      rw [(Merge.all?_none_congr hstatus).mpr hmerge'] at hmerge
      cases hmerge
    | some merged' =>
      have hclash' := (Merge.all?_none_congr (w := w) hstatus').mp hnone
      rw [Merge.all?_concat, hmerge'] at hclash'
      have hgrown := (chain_grows (chain.imp hR)).trans hpart.gains.grows
      have hgrown' := (chain_grows chain').trans hpart'.gains.grows
      exact ⟨_, _, .clash hlen (fun _ _ _ _ h => h) chain' hmerge' hpart' hclash',
        (habreast.trans habreast').rollback hgrown hgrown', fun r _ => .of_form .nothing⟩
  | disjunction hR chain hconditions ih =>
    intro w t
    obtain ⟨bs', t', chain', habreast, hmirror⟩ := chain_parallel hR ih chain w t
    have hconditions' := (chain_conditions chain').mpr
      ((chain_conditions (chain.imp hR)).mp hconditions)
    refine ⟨_, t', .disjunction (fun _ _ _ _ h => h) chain' hconditions', habreast, ?_⟩
    intro r hr
    have hfound := filter_mirrors (hmirror r hr)
    exact (Mirrors.alternativesCondition hr.fits hfound).attachSort hr.fits hr.entity _ _
  | saturation hR chain hconditions hpart heverything ih ihpart =>
    intro w t
    obtain ⟨bs', t₁, chain', habreast, -⟩ := chain_parallel hR ih chain w t
    obtain ⟨b', t', hpart', habreast', -⟩ := ihpart w t₁
    have hconditions' := (chain_conditions chain').mpr
      ((chain_conditions (chain.imp hR)).mp hconditions)
    have heverything' := Condition.isEverything_iff_status.mp heverything
    rw [hpart.status, ← hpart'.status, ← Condition.isEverything_iff_status] at heverything'
    have hgrown := (chain_grows (chain.imp hR)).trans hpart.gains.grows
    have hgrown' := (chain_grows chain').trans hpart'.gains.grows
    exact ⟨_, _, .saturation (fun _ _ _ _ h => h) chain' hconditions' hpart' heverything',
      (habreast.trans habreast').rollback hgrown hgrown',
      fun r hr => .everything hr.fits hr.entity _⟩

end Compiler

end WikiQuery
