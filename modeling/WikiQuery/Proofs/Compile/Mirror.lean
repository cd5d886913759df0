import WikiQuery.Proofs.Compile.SortOnce
import WikiQuery.Proofs.Condition.Alike

namespace WikiQuery

-- Variables of entities correspond one to one, and what they are sorted by corresponds as well.
-- That need not be one to one: a suffix of digits turns a fresh variable into another one.
structure Correspondence.Fits (r : Correspondence) (suffix : String) : Prop where
  unique : Relator.BiUnique r.entity
  plain : ∀ {v w}, r.entity v w → r.sort v w
  suffixed : ∀ {v w}, r.entity v w → r.sort (v.withSuffix suffix) (w.withSuffix suffix)

namespace Compiler

variable {c : Compiler} {keys : SortKeys} {r : Correspondence} {b b' : Condition}
  {v w : Variable}

-- Weak conditions that bind the sort keys of corresponding variables.
def SortsAlike (c : Compiler) (r : Correspondence) (x y : Condition) : Prop :=
  ∃ v w, r.entity v w ∧ x = c.sortBinding v ∧ y = c.sortBinding w

-- Conditions that are alike, and of whose weak conditions it is known what they are.
structure Mirrors (c : Compiler) (r : Correspondence) (b b' : Condition) : Prop where
  form : b.form.Alike r (Condition.Alike r) b'.form
  attachments : b.attachments.Alike r (c.SortsAlike r) b'.attachments

theorem Mirrors.alike (hr : r.Fits c.settings.sortSuffix) (h : c.Mirrors r b b') :
    b.Alike r b' := by
  obtain ⟨form, a⟩ := b
  obtain ⟨form', a'⟩ := b'
  obtain ⟨hform, hattachments⟩ := h
  cases hattachments with
  | mk hweak hsorts =>
    refine .mk hform (.mk (hweak.imp ?_) hsorts)
    rintro x y ⟨v, w, hvw, rfl, rfl⟩
    exact .mk (.pattern (.cons (.sortKey hvw (hr.suffixed hvw)) .nil)) (.mk .nil .empty)

-- Whether a sort key is bound already does not depend on the names.
theorem contains_sortsAlike (hr : r.Fits c.settings.sortSuffix) {weak weak' : List Condition}
    {x y : Condition} (hweak : List.Forall₂ (c.SortsAlike r) weak weak')
    (hxy : c.SortsAlike r x y) : weak.contains x = weak'.contains y := by
  obtain ⟨v, w, hvw, rfl, rfl⟩ := hxy
  induction hweak with
  | nil => rfl
  | cons hhead _ ih =>
    obtain ⟨v', w', hvw', rfl, rfl⟩ := hhead
    have hsame : (c.sortBinding v == c.sortBinding v') = (c.sortBinding w == c.sortBinding w') := by
      rw [Bool.eq_iff_iff, beq_sortBinding, beq_sortBinding]
      constructor
      · intro heq
        have hv := sortBinding_injective heq
        subst hv
        rw [hr.unique.2 hvw hvw']
      · intro heq
        have hw := sortBinding_injective heq
        subst hw
        rw [hr.unique.1 hvw hvw']
    rw [List.contains_cons, List.contains_cons, hsame, ih]

theorem merge_sortsAlike (hr : r.Fits c.settings.sortSuffix) {a a' b b' : Attachments Condition}
    (ha : a.Alike r (c.SortsAlike r) a') (hb : b.Alike r (c.SortsAlike r) b') :
    (a.merge b).Alike r (c.SortsAlike r) (a'.merge b') := by
  cases ha with
  | mk hweak hsorts =>
    cases hb with
    | mk hweak' hsorts' =>
      refine .mk ?_ (hsorts.union hsorts')
      refine List.rel_foldl ?_ hweak hweak'
      intro kept kept' hkept x y hxy
      dsimp only
      rw [contains_sortsAlike hr hkept hxy]
      split
      · exact hkept
      · exact List.rel_append hkept (.cons hxy .nil)

theorem foldl_sortsAlike (hr : r.Fits c.settings.sortSuffix) {bs bs' : List Condition}
    (h : List.Forall₂ (c.Mirrors r) bs bs') :
    Attachments.Alike r (c.SortsAlike r) (bs.foldl (fun a b => a.merge b.attachments) {})
      (bs'.foldl (fun a b => a.merge b.attachments) {}) := by
  refine List.rel_foldl (P := Attachments.Alike r (c.SortsAlike r)) ?_ (.mk .nil .empty) h
  intro a a' ha b b' hb
  exact merge_sortsAlike hr ha hb.attachments

namespace Mirrors

theorem isNothing (h : c.Mirrors r b b') : b.isNothing = b'.isNothing := by
  obtain ⟨form, a⟩ := b
  obtain ⟨form', a'⟩ := b'
  cases h.form <;> rfl

theorem bound? (h : c.Mirrors r b b') : b.bound? = b'.bound? := by
  obtain ⟨form, a⟩ := b
  obtain ⟨form', a'⟩ := b'
  cases h.form <;> rfl

theorem of_form {form form' : Form Condition} {safe : Bool}
    (h : form.Alike r (Condition.Alike r) form') :
    c.Mirrors r ⟨form, { safe }⟩ ⟨form', { safe }⟩ :=
  ⟨h, .mk .nil .empty⟩

theorem declare (h : c.Mirrors r b b') (vocabulary : Vocabulary) :
    c.Mirrors r (b.declare vocabulary) (b'.declare vocabulary) := by
  obtain ⟨form, a⟩ := b
  obtain ⟨form', a'⟩ := b'
  obtain ⟨hform, hattachments⟩ := h
  cases hattachments with
  | mk hweak hsorts => exact ⟨hform, .mk hweak hsorts⟩

-- Sorts are recorded alike where nothing was recorded under the key before.
theorem attachSort (hr : r.Fits c.settings.sortSuffix) (h : c.Mirrors r b b')
    (hvw : r.entity v w) (target : Option SortTarget) (datatype : Datatype) :
    c.Mirrors r (c.attachSort keys v target datatype b)
      (c.attachSort keys w target datatype b') := by
  have hnothing := h.isNothing
  obtain ⟨form, a⟩ := b
  obtain ⟨form', a'⟩ := b'
  obtain ⟨hform, hattachments⟩ := h
  cases hattachments with
  | mk hweak hsorts =>
    cases target with
    | none => exact ⟨hform, .mk hweak hsorts⟩
    | some target =>
      unfold Compiler.attachSort
      dsimp only
      rw [hnothing, hsorts.contains]
      split
      · exact ⟨hform, .mk hweak hsorts⟩
      · split
        · refine ⟨hform, .mk (List.rel_append hweak (.cons ?_ .nil)) (hsorts.insert _ ?_)⟩
          · exact ⟨v, w, hvw, rfl, rfl⟩
          · exact hr.suffixed hvw
        · exact ⟨hform, .mk hweak (hsorts.insert _ (hr.plain hvw))⟩

theorem everything (hr : r.Fits c.settings.sortSuffix) (hvw : r.entity v w)
    (target : Option SortTarget) :
    c.Mirrors r (c.everything keys v target) (c.everything keys w target) :=
  (of_form .everything).attachSort hr hvw target _

theorem namespaceCondition (hr : r.Fits c.settings.sortSuffix) (hvw : r.entity v w)
    (target : Option SortTarget) (number : Int32) :
    c.Mirrors r (c.namespaceCondition keys v target number)
      (c.namespaceCondition keys w target number) :=
  (of_form (.pattern (.cons (.inNamespace number hvw) .nil))).attachSort hr hvw target .page

theorem categoryCondition (hr : r.Fits c.settings.sortSuffix) (hvw : r.entity v w)
    (target : Option SortTarget) (ids : List Nat) {closure closure' : Option SubqueryId}
    (hclosure : Option.Rel r.closure closure closure') :
    c.Mirrors r (c.categoryCondition keys v target ids closure)
      (c.categoryCondition keys w target ids closure') :=
  (of_form (.pattern (.cons (.inCategory ids hvw hclosure) .nil))).attachSort hr hvw target .page

theorem comparison (hvw : r.entity v w) (p : Property) (relation : Relation) (x : Value) :
    c.Mirrors r (c.comparison v p relation x) (c.comparison w p relation x) := by
  unfold Compiler.comparison
  cases x.resource? with
  | none => exact of_form (.filter (.cons (.compare _ (.field _ hvw) (.value x)) .nil))
  | some t => exact of_form (.filter (.cons (.compare _ (.field _ hvw) (.text _)) .nil))

theorem matching (hvw : r.entity v w) (p : Property) (pattern : String) (negated : Bool) :
    c.Mirrors r (c.matching v p pattern negated) (c.matching w p pattern negated) :=
  of_form (.filter (.cons (.regex _ _ (.field _ hvw)) .nil))

theorem valueCondition? (hvw : r.entity v w) (p : Property) (comparator : Comparator) (x : Value) :
    Option.Rel (c.Mirrors r) (c.valueCondition? v p comparator x)
      (c.valueCondition? w p comparator x) := by
  cases comparator with
  | unknown => exact .none
  | like =>
    cases x with
    | text s => exact .some (matching hvw p s false)
    | page _ => exact .none
    | number _ => exact .none
    | boolean _ => exact .none
  | notLike =>
    cases x with
    | text s => exact .some (matching hvw p s true)
    | page _ => exact .none
    | number _ => exact .none
    | boolean _ => exact .none
  | eq =>
    cases x with
    | page t => exact .some (of_form (.singleton t .nil))
    | text s => exact .some (comparison hvw p .eq (.text s))
    | number n => exact .some (comparison hvw p .eq (.number n))
    | boolean b => exact .some (comparison hvw p .eq (.boolean b))
  | less => exact .some (comparison hvw p .less x)
  | greater => exact .some (comparison hvw p .greater x)
  | leq => exact .some (comparison hvw p .leq x)
  | geq => exact .some (comparison hvw p .geq x)
  | neq => exact .some (comparison hvw p .neq x)

theorem declareValue (h : c.Mirrors r b b') (x : Value) :
    c.Mirrors r (declareValue x b) (declareValue x b') := by
  unfold Compiler.declareValue
  cases x.resource? >>= Resource.vocabulary? with
  | none => exact h
  | some vocabulary => exact h.declare vocabulary

theorem comparedCondition (hr : r.Fits c.settings.sortSuffix) (hvw : r.entity v w)
    (target : Option SortTarget) (p : Property) (comparator : Comparator) (x : Value) :
    c.Mirrors r (c.comparedCondition keys v target p comparator x)
      (c.comparedCondition keys w target p comparator x) := by
  have hvalue := valueCondition? (c := c) hvw p comparator x
  unfold Compiler.comparedCondition
  refine attachSort hr ?_ hvw target x.datatype
  generalize c.valueCondition? v p comparator x = found at hvalue ⊢
  generalize c.valueCondition? w p comparator x = found' at hvalue ⊢
  cases hvalue with
  | none => exact of_form .everything
  | some hfound => exact hfound.declareValue x

theorem propertyCondition (hr : r.Fits c.settings.sortSuffix) (hvw : r.entity v w)
    (target : Option SortTarget) (p : Property) {clause clause' : Clause} {group group' : Pattern}
    (hclause : clause.Alike r clause') (h : c.Mirrors r b b') (hgroup : group.Alike r group') :
    c.Mirrors r (c.propertyCondition keys v target p clause b group)
      (c.propertyCondition keys w target p clause' b' group') := by
  obtain ⟨form, a⟩ := b
  obtain ⟨form', a'⟩ := b'
  obtain ⟨-, hattachments⟩ := h
  cases hattachments with
  | @mk vocabularies weak weak' sorts sorts' safe hweak hsorts =>
    have hplain : c.Mirrors r ⟨.pattern (clause :: group), ⟨vocabularies, weak, sorts, true⟩⟩
        ⟨.pattern (clause' :: group'), ⟨vocabularies, weak', sorts', true⟩⟩ :=
      ⟨.pattern (.cons hclause hgroup), .mk hweak hsorts⟩
    unfold Compiler.propertyCondition
    refine attachSort hr ?_ hvw target .page
    cases p.vocabulary with
    | none => exact hplain
    | some vocabulary => exact hplain.declare vocabulary

theorem alternativesCondition (hr : r.Fits c.settings.sortSuffix) {bs bs' : List Condition}
    (h : List.Forall₂ (c.Mirrors r) bs bs') :
    c.Mirrors r (alternativesCondition bs) (alternativesCondition bs') := by
  have hattachments := foldl_sortsAlike hr h
  have hbranches := h.imp fun _ _ hb => hb.alike hr
  cases h with
  | nil => exact of_form .nothing
  | cons hfirst hrest =>
    cases hrest with
    | nil => exact hfirst
    | cons hsecond hrest => exact ⟨.alternatives hbranches, hattachments⟩

end Mirrors

theorem filter_mirrors {bs bs' : List Condition} (h : List.Forall₂ (c.Mirrors r) bs bs') :
    List.Forall₂ (c.Mirrors r) (bs.filter (!·.isNothing)) (bs'.filter (!·.isNothing)) := by
  refine List.rel_filter ?_ h
  intro b b' hb
  dsimp only
  rw [hb.isNothing]

end Compiler

-- What has been merged from conditions that mirror each other.
structure Merge.Mirrors (c : Compiler) (r : Correspondence) (m m' : Merge) : Prop where
  pattern : m.pattern.Alike r m'.pattern
  filter : m.filter.Alike r m'.filter
  bound : m.bound = m'.bound
  attachments : m.attachments.Alike r (c.SortsAlike r) m'.attachments

namespace Merge.Mirrors

variable {c : Compiler} {r : Correspondence} {m m' : Merge} {b b' : Condition} {v w : Variable}

theorem conflict? (hm : m.Mirrors c r m') (hb : c.Mirrors r b b') :
    m.conflict? b = m'.conflict? b' := by
  unfold Merge.conflict?
  rw [hm.bound, hb.bound?]

theorem absorb? (hr : r.Fits c.settings.sortSuffix) (hvw : r.entity v w) (hm : m.Mirrors c r m')
    (hb : c.Mirrors r b b') :
    Option.Rel (Merge.Mirrors c r) (m.absorb? v b) (m'.absorb? w b') := by
  have hmerged := Compiler.merge_sortsAlike hr hm.attachments hb.attachments
  have hpattern := Condition.toPattern?_alike hvw hb.form
  unfold Merge.absorb?
  rw [hm.conflict? hb, hm.bound]
  obtain ⟨form, a⟩ := b
  obtain ⟨form', a'⟩ := b'
  obtain ⟨hform, -⟩ := hb
  split
  · exact .none
  · cases hform with
    | everything => exact .some ⟨hm.pattern, hm.filter, rfl, hmerged⟩
    | nothing => exact .none
    | pattern hp => exact .some ⟨List.rel_append hm.pattern hp, hm.filter, rfl, hmerged⟩
    | filter hf => exact .some ⟨hm.pattern, List.rel_append hm.filter hf, rfl, hmerged⟩
    | singleton x hp => exact .some ⟨List.rel_append hm.pattern hp, hm.filter, rfl, hmerged⟩
    | alternatives _ =>
      cases hpattern with
      | some hunion => exact .some ⟨List.rel_append hm.pattern hunion, hm.filter, rfl, hmerged⟩

theorem all? (hr : r.Fits c.settings.sortSuffix) (hvw : r.entity v w) {bs bs' : List Condition}
    (h : List.Forall₂ (c.Mirrors r) bs bs') :
    Option.Rel (Merge.Mirrors c r) (all? v bs) (all? w bs') := by
  have hfold : ∀ m m' : Merge, m.Mirrors c r m' →
      Option.Rel (Merge.Mirrors c r) (bs.foldlM (Merge.absorb? v) m)
        (bs'.foldlM (Merge.absorb? w) m') := by
    induction h with
    | nil => exact fun m m' hm => .some hm
    | cons hb _ ih =>
      intro m m' hm
      rw [List.foldlM_cons, List.foldlM_cons]
      exact rel_bind (hm.absorb? hr hvw hb) ih
  exact hfold {} {} ⟨.nil, .nil, rfl, .mk .nil .empty⟩

theorem finish (hm : m.Mirrors c r m') : c.Mirrors r m.finish m'.finish := by
  refine ⟨?_, hm.attachments⟩
  have hpattern := hm.pattern
  have hfilter := hm.filter
  unfold Merge.finish Merge.form
  dsimp only
  rw [hm.bound]
  cases m'.bound with
  | some x => exact .singleton x (hpattern.addFilter hfilter)
  | none =>
    dsimp only
    rw [isEmpty_eq_of_forall₂ hpattern, isEmpty_eq_of_forall₂ hfilter]
    split
    · split
      · exact .everything
      · exact .filter hfilter
    · exact .pattern (hpattern.addFilter hfilter)

end Merge.Mirrors

end WikiQuery
