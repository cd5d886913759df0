import WikiQuery.Proofs.Compile.SortVariables
import WikiQuery.Proofs.Compile.Sorting
import WikiQuery.Proofs.Compile.Status

namespace WikiQuery

namespace Catalog

-- Pages, unless nothing fulfils a description.
def pages (c : Catalog) (path : List Page) (d : Description) : List Datatype :=
  if c.status path d = .never then [] else [.page]

-- The kinds of values as which the results of a description are sorted, one alternative after the
-- other. Where results are compared with a value, they are taken for values of its kind.
def sortedAs (c : Catalog) (path : List Page) (d : Description) : List Datatype :=
  match d with
  | .concept page =>
    match _h : c.enter? path page with
    | none => []
    | some definition => sortedAs c (page :: path) definition
  | .value _ _ x => [x.datatype]
  | .conjunction [part] => sortedAs c path part
  | .disjunction parts =>
    if ∃ part ∈ parts, c.status path part = .always then [.page]
    else parts.flatMap fun part => sortedAs c path part
  | .thing | .inNamespace _ | .inCategory _ | .someProperty _ _ | .conjunction _ => c.pages path d
termination_by (c.remaining path, sizeOf d)
decreasing_by
  · exact Prod.Lex.left _ _ (remaining_enter_lt _h)
  all_goals decreasing_tactic

variable {c : Catalog} {path : List Page}

theorem sortedAs_noConcept {page : Page} (h : c.enter? path page = none) :
    c.sortedAs path (.concept page) = [] := by
  rw [sortedAs]
  split
  · rfl
  · simp_all

theorem sortedAs_concept {page : Page} {definition : Description}
    (h : c.enter? path page = some definition) :
    c.sortedAs path (.concept page) = c.sortedAs (page :: path) definition := by
  rw [sortedAs]
  split
  · simp_all
  · simp_all

theorem sortedAs_conjunction {parts : List Description} (h : 2 ≤ parts.length) :
    c.sortedAs path (.conjunction parts) = c.pages path (.conjunction parts) := by
  rw [sortedAs]
  · rintro part rfl
    simp at h

theorem sortedAs_disjunction (parts : List Description) :
    c.sortedAs path (.disjunction parts) =
      if ∃ part ∈ parts, c.status path part = .always then [.page]
      else parts.flatMap (c.sortedAs path) := by
  rw [sortedAs]

end Catalog

namespace Compiler

variable {c : Compiler} {keys : SortKeys} {join : Variable} {datatype : Datatype}
  {condition : Condition}

-- Results are sorted by the sort key of their pages.
def SortsPages (c : Compiler) (join : Variable) (a : Attachments Condition) : Prop :=
  a.sortVariables.get? SortKeys.mainSubject = some (join.withSuffix c.settings.sortSuffix) ∧
    c.sortBinding join ∈ a.weak

-- The kinds of values tell how the results of a condition are sorted: the first one settles what is
-- recorded, and pages are sorted by their sort key throughout just if all of them are pages.
structure SortsAs (c : Compiler) (join : Variable) (datatypes : List Datatype)
    (condition : Condition) : Prop where
  first : condition.attachments.sortVariables.get? SortKeys.mainSubject =
    datatypes.head?.map (c.sortVariable join)
  pages : condition.isNothing = true ∨ condition.Throughout (c.SortsPages join) ↔
    ∀ datatype ∈ datatypes, datatype.isPage = true

theorem withSuffix_ne_self {v : Variable} (h : c.settings.sortSuffix ≠ "") :
    v ≠ v.withSuffix c.settings.sortSuffix := by
  intro heq
  have hname : v.name ++ "" = v.name ++ c.settings.sortSuffix := by
    rw [String.append_empty]
    exact congrArg Variable.name heq
  exact h ((String.append_right_inj _).mp hname).symm

theorem sortsAs_nothing (c : Compiler) (join : Variable) : c.SortsAs join [] .nothing where
  first := rfl
  pages := by simp [Condition.isNothing, Condition.nothing]

theorem sortsAs_attachSort (hmain : keys.contains SortKeys.mainSubject = true)
    (hsuffix : c.settings.sortSuffix ≠ "") (hcondition : condition.isNothing = false)
    (hform : condition.form.branches = [])
    (hnew : condition.attachments.sortVariables.contains SortKeys.mainSubject = false) :
    c.SortsAs join [datatype]
      (c.attachSort keys join (some .mainSubject) datatype condition) := by
  obtain ⟨hweak, hsorts⟩ :=
    c.attachSort_new join datatype (t := .mainSubject) hcondition hmain hnew
  have hfirst : (c.attachSort keys join (some .mainSubject) datatype
      condition).attachments.sortVariables.get? SortKeys.mainSubject =
        some (c.sortVariable join datatype) := by
    rw [hsorts, KeyMap.get?_insert]
    exact if_pos rfl
  refine ⟨hfirst, ?_⟩
  rw [Condition.isNothing_congr (form_attachSort ..), hcondition,
    Condition.throughout_of_branches (by rw [form_attachSort, hform]), List.forall_mem_singleton]
  unfold SortsPages
  rw [hfirst, hweak]
  unfold sortVariable sortBindings
  cases datatype.isPage with
  | true => simp
  | false => simp [withSuffix_ne_self hsuffix]

theorem not_gives_mainSubject
    (hproperty : c.catalog.property? { key := SortKeys.mainSubject } = none)
    (hasks : ∀ clause ∈ condition.atoms, c.Asks clause) (v : Variable) :
    ¬ condition.Gives SortKeys.mainSubject v := by
  rintro ⟨clause, hclause, hkey, -⟩
  obtain ⟨info, -, hinfo, -⟩ := hasks clause hclause _ hkey
  rw [hproperty] at hinfo
  cases hinfo

theorem contains_mainSubject
    (hproperty : c.catalog.property? { key := SortKeys.mainSubject } = none)
    (hasks : ∀ clause ∈ condition.atoms, c.Asks clause)
    (h : c.Sorts keys condition.Gives condition.attachments) :
    condition.attachments.sortVariables.contains SortKeys.mainSubject = false := by
  rw [← Bool.not_eq_true, h.recorded]
  rintro ⟨-, v, hv⟩
  exact not_gives_mainSubject hproperty hasks v hv

-- Where nothing but the results is on offer under their key, their sort key is bound if it is
-- recorded.
theorem sortsPages_iff (hsuffix : c.settings.sortSuffix ≠ "")
    (hgives : ∀ v, ¬ condition.Gives SortKeys.mainSubject v)
    (h : c.Sorts keys (condition.Offers join (some .mainSubject)) condition.attachments) :
    c.SortsPages join condition.attachments ↔
      condition.attachments.sortVariables.get? SortKeys.mainSubject =
        some (join.withSuffix c.settings.sortSuffix) := by
  refine ⟨And.left, fun hget => ⟨hget, ?_⟩⟩
  obtain ⟨v, ⟨t, -, -, rfl⟩ | hv, hbound⟩ := h.bound _ _ hget
  · rcases hbound with heq | ⟨-, hmem⟩
    · exact absurd heq.symm (withSuffix_ne_self hsuffix)
    · exact hmem
  · exact absurd hv (hgives v)

theorem get?_foldl_merge (conditions : List Condition) (a : Attachments Condition) (key : String) :
    (conditions.foldl (fun a b => a.merge b.attachments) a).sortVariables.get? key =
      (a.sortVariables.get? key).or
        (conditions.findSome? (·.attachments.sortVariables.get? key)) := by
  induction conditions generalizing a with
  | nil => simp
  | cons b rest ih =>
    have hmerge : (a.merge b.attachments).sortVariables.get? key =
        (a.sortVariables.get? key).or (b.attachments.sortVariables.get? key) :=
      KeyMap.get?_union ..
    rw [List.foldl_cons, ih, hmerge, List.findSome?_cons, Option.or_assoc]
    cases b.attachments.sortVariables.get? key <;> simp

theorem get?_alternativesCondition (branches : List Condition) (key : String) :
    (alternativesCondition branches).attachments.sortVariables.get? key =
      branches.findSome? (·.attachments.sortVariables.get? key) := by
  rcases branches with _ | ⟨first, _ | ⟨second, rest⟩⟩
  · rfl
  · rw [List.findSome?_singleton]
    rfl
  · exact get?_foldl_merge (first :: second :: rest) {} key

-- Alternatives are sorted by sort keys throughout if each of them is: the first one settles what
-- is recorded for all.
theorem throughout_sortsPages {branches : List Condition} (hsuffix : c.settings.sortSuffix ≠ "")
    (hgives : ∀ v, ¬ (alternativesCondition branches).Gives SortKeys.mainSubject v)
    (hbranches : ∀ b ∈ branches, b.isNothing = false)
    (hsorts : ∀ b ∈ branches, c.Sorts keys (b.Offers join (some .mainSubject)) b.attachments) :
    (alternativesCondition branches).isNothing = true ∨
        (alternativesCondition branches).Throughout (c.SortsPages join) ↔
      ∀ b ∈ branches, b.Throughout (c.SortsPages join) := by
  rcases branches with _ | ⟨first, _ | ⟨second, rest⟩⟩
  · simp [alternativesCondition, Condition.nothing, Condition.isNothing]
  · simp [alternativesCondition, hbranches first]
  · rw [Condition.throughout_iff]
    constructor
    · rintro (hnothing | ⟨-, hall⟩)
      · cases hnothing
      · exact hall
    · intro hall
      have hfirst := (Condition.throughout_iff.mp (hall first (by simp))).1
      refine .inr ⟨?_, hall⟩
      rw [sortsPages_iff hsuffix hgives (sorts_alternatives (by simp) hsorts),
        get?_alternativesCondition, List.findSome?_cons, hfirst.1]

theorem findSome?_found {conditions : List Condition} {key : String}
    (h : ∀ b ∈ conditions, b.isNothing = true → b.attachments = {}) :
    (conditions.filter (!·.isNothing)).findSome? (·.attachments.sortVariables.get? key) =
      conditions.findSome? (·.attachments.sortVariables.get? key) := by
  induction conditions with
  | nil => rfl
  | cons b rest ih =>
    obtain ⟨hb, hrest⟩ := List.forall_mem_cons.mp h
    rw [List.findSome?_cons, ← ih hrest]
    cases hnothing : b.isNothing with
    | false => rw [List.filter_cons_of_pos (by simp [hnothing]), List.findSome?_cons]
    | true =>
      rw [List.filter_cons_of_neg (by simp [hnothing]), hb hnothing]
      rfl

theorem sortsAs_disjunction {R : Description → Progress → Condition → Progress → Prop}
    {parts : List Description} {conditions : List Condition} {s s' : Progress}
    {datatypes : Description → List Datatype} (hsuffix : c.settings.sortSuffix ≠ "")
    (hgives : ∀ v, ¬ (alternativesCondition (conditions.filter (!·.isNothing))).Gives
      SortKeys.mainSubject v)
    (hsorts : ∀ b ∈ conditions, b.isNothing = false →
      c.Sorts keys (b.Offers join (some .mainSubject)) b.attachments)
    (hnothing : ∀ b ∈ conditions, b.isNothing = true → b.attachments = {})
    (chain : Chain R parts s conditions s')
    (h : ∀ part s b s', R part s b s' → c.SortsAs join (datatypes part) b) :
    c.SortsAs join (parts.flatMap datatypes)
      (alternativesCondition (conditions.filter (!·.isNothing))) where
  first := by
    have hmap := chain.map_result fun part s b s' hR => (h part s b s' hR).first
    rw [get?_alternativesCondition, findSome?_found hnothing, List.head?_flatMap,
      List.map_findSome?]
    have hfind : ∀ {α : Type} (l : List α) (f : α → Option Variable),
        l.findSome? f = (l.map f).findSome? id := by
      intro α l f
      rw [List.findSome?_map, Function.id_comp]
    rw [hfind conditions, hmap, ← hfind]
    rfl
  pages := by
    have hall := chain.forall_iff fun part s b s' hR => (h part s b s' hR).pages
    rw [throughout_sortsPages hsuffix hgives (by simp) (sorts_found hsorts),
      List.forall_mem_flatMap, ← hall]
    constructor
    · intro hfound b hb
      cases hempty : b.isNothing with
      | true => exact .inl rfl
      | false => exact .inr (hfound b (List.mem_filter.mpr ⟨hb, by simp [hempty]⟩))
    · intro hevery b hb
      obtain ⟨hb, hfound⟩ := List.mem_filter.mp hb
      rcases hevery b hb with hempty | hpages
      · simp [hempty] at hfound
      · exact hpages

-- No property has the key of the results, so that they are sorted where the request for them goes:
-- into the alternatives, and otherwise to the outermost description.
theorem Compiles.sortsAs {path : List Page} {d : Description} {target : Option SortTarget}
    {s s' : Progress} (h : Compiles c keys path d join target s condition s')
    (htarget : target = some .mainSubject) (hmain : keys.contains SortKeys.mainSubject = true)
    (hproperty : c.catalog.property? { key := SortKeys.mainSubject } = none)
    (hsuffix : c.settings.sortSuffix ≠ "") :
    c.SortsAs join (c.catalog.sortedAs path d) condition := by
  have hstatus := h.status
  have hasks := h.asks
  have heverything : ∀ join, c.SortsAs join [.page] (c.everything keys join (some .mainSubject)) :=
    fun join => sortsAs_attachSort hmain hsuffix rfl rfl rfl
  induction h with
  | thing =>
    subst htarget
    rw [Catalog.sortedAs, Catalog.pages, ← hstatus, form_everything]
    exact heverything _
  | inNamespace number =>
    subst htarget
    rw [Catalog.sortedAs, Catalog.pages, ← hstatus, form_namespaceCondition]
    exact sortsAs_attachSort hmain hsuffix rfl rfl rfl
  | noCategory _ =>
    rw [Catalog.sortedAs, Catalog.pages, ← hstatus]
    exact sortsAs_nothing ..
  | inCategory _ _ =>
    subst htarget
    rw [Catalog.sortedAs, Catalog.pages, ← hstatus, form_categoryCondition]
    exact sortsAs_attachSort hmain hsuffix rfl rfl rfl
  | noConcept hnone =>
    rw [Catalog.sortedAs_noConcept hnone]
    exact sortsAs_nothing ..
  | concept hsome hinner ih =>
    rw [Catalog.sortedAs_concept hsome]
    exact ih htarget hinner.status hasks
  | @value _ join target _ p comparator x =>
    subst htarget
    obtain ⟨plain, heq, hplain, hform, -, hnew⟩ :=
      c.comparedCondition_eq keys join (some .mainSubject) p comparator x
    rw [Catalog.sortedAs, heq]
    exact sortsAs_attachSort hmain hsuffix hplain hform (by simp [hnew])
  | noProperty _ =>
    rw [Catalog.sortedAs, Catalog.pages, ← hstatus]
    exact sortsAs_nothing ..
  | @someProperty _ join target _ _ _ p _ _ clause v inner group hp hopen hinner hgroup ih =>
    subst htarget
    obtain ⟨plain, heq, hform, hweak, hinnerSorts⟩ :=
      c.propertyCondition_eq keys join (some .mainSubject) p clause inner group
    have hplain := sorts_property hopen hgroup
      (hinner.sorts (Condition.isNothing_of_toPattern? hgroup)) hform hweak hinnerSorts
    rw [Catalog.sortedAs, Catalog.pages, ← hstatus, form_propertyCondition, heq]
    rw [heq, Condition.atoms_eq_of_form (form_attachSort ..)] at hasks
    exact sortsAs_attachSort hmain hsuffix (by simp [Condition.isNothing, hform])
      (by simp [hform, Form.branches]) (contains_mainSubject hproperty hasks hplain)
  | emptyProperty =>
    rw [Catalog.sortedAs, Catalog.pages, ← hstatus]
    exact sortsAs_nothing ..
  | conjunctionNone =>
    subst htarget
    rw [Catalog.sortedAs, Catalog.pages, ← hstatus, form_everything]
    · exact heverything _
    · simp
  | conjunctionOne hinner ih =>
    rw [Catalog.sortedAs]
    exact ih htarget hinner.status hasks
  | @conjunction _ join _ _ _ _ conditions m _ hlen hsteps chain hmerge ih =>
    subst htarget
    obtain ⟨hnothing, hform⟩ := m.finish_cases
    have hfound : ¬ m.finish.form.status = .never := by
      rw [Form.status_eq_never, Condition.form_eq_nothing, hnothing]
      simp
    have hmerged := sorts_finish hmerge (sorts_of_chain hsteps chain)
    rw [Catalog.sortedAs_conjunction hlen, Catalog.pages, ← hstatus, form_attachRequested,
      if_neg hfound]
    rw [atoms_attachRequested] at hasks
    exact sortsAs_attachSort hmain hsuffix hnothing hform
      (contains_mainSubject hproperty hasks hmerged.1)
  | clash hlen =>
    rw [Catalog.sortedAs_conjunction hlen, Catalog.pages, ← hstatus]
    exact sortsAs_nothing ..
  | @disjunction path join _ _ _ parts conditions _ hsteps chain hconditions ih =>
    subst htarget
    have hnever : ∀ part ∈ parts, c.catalog.status path part ≠ .always := by
      refine (chain.forall_iff ?_).mp hconditions
      intro part s b s' hR
      rw [← (hsteps part s b s' hR).status, ne_eq, Form.status_eq_always,
        Condition.form_eq_everything, Bool.not_eq_true]
    have hnot : ¬ ∃ part ∈ parts, c.catalog.status path part = .always := by
      rintro ⟨part, hpart, halways⟩
      exact hnever part hpart halways
    have hparts := sorts_of_chain hsteps chain
    rw [Catalog.sortedAs_disjunction, if_neg hnot,
      attachRequested_alternatives (sorts_found hparts)]
    rw [atoms_attachRequested] at hasks
    refine sortsAs_disjunction hsuffix (not_gives_mainSubject hproperty hasks) hparts ?_ chain ?_
    · exact chain.forall_result fun part s b s' hR =>
        (hsteps part s b s' hR).attachments_of_isNothing
    · intro part s b s' hR
      have hpart := hsteps part s b s' hR
      exact ih part s b s' hR rfl hpart.status hpart.asks
  | @saturation path _ _ _ _ _ done part rest _ _ _ _ _ _ hpart hcondition =>
    subst htarget
    have halways : c.catalog.status path part = .always := by
      rw [← hpart.status, Form.status_eq_always]
      exact Condition.form_eq_everything.mpr hcondition
    rw [Catalog.sortedAs_disjunction, if_pos ⟨part, by simp, halways⟩]
    exact heverything _

theorem Compiles.value_inline {path : List Page} {p : Property} {comparator : Comparator}
    {x : Value} {t : SortTarget} {s s' : Progress} (hx : x.datatype.isPage = false)
    (hkey : keys.contains t.key = true)
    (h : Compiles c keys path (.value p comparator x) join (some t) s condition s') :
    condition.isNothing = false ∧ condition.attachments.sortVariables.get? t.key = some join ∧
      condition.attachments.weak = [] := by
  cases h
  obtain ⟨plain, heq, hplain, -, hweak, hsorts⟩ :=
    c.comparedCondition_eq keys join (some t) p comparator x
  obtain ⟨hadded, hrecorded⟩ :=
    c.attachSort_new join x.datatype hplain hkey (by simp [hsorts])
  rw [heq, Condition.isNothing_congr (form_attachSort ..), hadded, hrecorded, hweak,
    KeyMap.get?_insert]
  simp [hplain, sortVariable, sortBindings, hx]

end Compiler

namespace Session

-- Where the results are to be sorted, they are sorted by the sort key of their pages just if no
-- alternative takes them for values of another kind. The first one settles what is recorded.
theorem query_sortsPages_iff (s : Session) (hc : s.compiler.Standard)
    (hsettings : s.compiler.settings.fault? = none)
    (hproperty : s.compiler.catalog.property? { key := SortKeys.mainSubject } = none)
    (d : Description) {sorts : List RequestedSort}
    (hmain : ∃ sort ∈ sorts, sort.key = SortKeys.mainSubject) :
    ∃ q s', s.query d sorts = (.ok q, s') ∧ q.result = ⟨s.compiler.settings.result⟩ ∧
      q.condition.attachments.sortVariables.get? SortKeys.mainSubject =
        (s.compiler.catalog.sortedAs [] d).head?.map (s.compiler.sortVariable q.result) ∧
      ((q.condition.isNothing = false →
          q.condition.Throughout (s.compiler.SortsPages q.result)) ↔
        ∀ datatype ∈ s.compiler.catalog.sortedAs [] d, datatype.isPage = true) := by
  obtain ⟨condition, p, s', h, hquery⟩ := s.query_run hc d sorts
  have hrequested := SortKeys.contains_ofRequests.mpr hmain
  have htarget : (SortKeys.ofRequests sorts).rootTarget = some .mainSubject :=
    mem_rootTarget.mpr ⟨hrequested, rfl⟩
  have hsorted := h.sortsAs htarget hrequested hproperty (Settings.sortSuffix_ne_empty hsettings)
  refine ⟨_, s', hquery, rfl, hsorted.first, ?_⟩
  rw [← hsorted.pages]
  cases condition.isNothing <;> simp

-- A page that results are compared with is one of the pages that they are sorted among.
theorem query_sortsPages_iff_lovelace :
    let s : Session := { compiler := { catalog := ({} : Catalog).addProperty "Age" .number } }
    let d : Description := .disjunction
      [.inCategory [⟨"Nowhere", 14⟩],
        .value { key := "Name" } .eq (.page (.page ⟨"Ada Lovelace", 0⟩)),
        .someProperty { key := "Age" } (.value { key := "Age" } .eq (.text "36"))]
    let sorts : List RequestedSort := [{ key := "" }, { key := "Age" }]
    s.compiler.Standard ∧ s.compiler.settings.fault? = none ∧
      s.compiler.catalog.property? { key := SortKeys.mainSubject } = none ∧
      ∃ q s', s.query d sorts = (.ok q, s') ∧
        q.condition.attachments.sortVariables.get? SortKeys.mainSubject = some ⟨"resultsk"⟩ ∧
        (q.condition.isNothing = false →
          q.condition.Throughout (s.compiler.SortsPages q.result)) := by
  intro s d sorts
  have hc : s.compiler.Standard := Compiler.standard_of_builders rfl
  have hsettings : s.compiler.settings.fault? = none := by decide +kernel
  have hmain : ∃ sort ∈ sorts, sort.key = SortKeys.mainSubject :=
    ⟨{ key := "" }, by simp [sorts], rfl⟩
  have hsorted : s.compiler.catalog.sortedAs [] d = [.page, .page] := by
    have hnowhere : s.compiler.catalog.status [] (.inCategory [⟨"Nowhere", 14⟩]) = .never := by
      rw [Catalog.status]
      decide +kernel
    have hage : s.compiler.catalog.status [] (.someProperty { key := "Age" }
        (.value { key := "Age" } .eq (.text "36"))) = .depends := by
      rw [Catalog.status, Catalog.status]
      decide +kernel
    have hname : s.compiler.catalog.status []
        (.value { key := "Name" } .eq (.page (.page ⟨"Ada Lovelace", 0⟩))) ≠ .always := by
      rw [Catalog.status]
      decide +kernel
    rw [Catalog.sortedAs_disjunction, if_neg (by simp [hnowhere, hage, hname])]
    simp [Catalog.sortedAs, Catalog.pages, hnowhere, hage, Value.datatype]
  obtain ⟨q, s', hquery, hresult, hfirst, hpages⟩ :=
    query_sortsPages_iff s hc hsettings rfl d hmain
  rw [hsorted] at hfirst hpages
  rw [hresult] at hfirst
  exact ⟨hc, hsettings, rfl, q, s', hquery, hfirst, hpages.mpr (by decide)⟩

-- A nickname is no page, and so are the results that it is compared with.
theorem query_sorts_nicknames :
    let s : Session := { compiler := { catalog := ({} : Catalog).addProperty "Nickname" .text } }
    s.compiler.settings.fault? = none ∧
      ∃ q s', s.query (.value { key := "Nickname" } .eq (.text "Bob")) [{ key := "" }] =
          (.ok q, s') ∧
        q.condition.isNothing = false ∧
        q.condition.attachments.sortVariables.get? SortKeys.mainSubject = some ⟨"result"⟩ ∧
        q.condition.attachments.weak = [] := by
  intro s
  have hsettings : s.compiler.settings.fault? = none := by decide +kernel
  have hc : s.compiler.Standard := Compiler.standard_of_builders rfl
  have hmain : (SortKeys.ofRequests [{ key := "" }]).contains SortKeys.mainSubject = true := by
    decide +kernel
  obtain ⟨condition, p, s', h, hquery⟩ := s.query_run hc
    (.value { key := "Nickname" } .eq (.text "Bob")) [{ key := "" }]
  exact ⟨hsettings, _, s', hquery, h.value_inline (t := .mainSubject) rfl hmain⟩

end Session

end WikiQuery
