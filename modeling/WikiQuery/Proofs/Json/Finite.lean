import WikiQuery.Json.Source

namespace WikiQuery

namespace Number

variable {negative : Bool} {x : Number}

theorem isFinite_ofMagnitude {magnitude : Nat} (h : magnitude < infinity) :
    (ofMagnitude negative magnitude).isFinite = true := by
  have hbits : (ofMagnitude negative magnitude).magnitude = magnitude := by
    unfold ofMagnitude Number.magnitude
    unfold infinity at h
    rw [UInt64.toNat_ofNat']
    unfold signBit
    cases negative <;> simp <;> omega
  rw [isFinite, hbits]
  exact decide_eq_true h

theorem zero_lt_infinity : 0 < infinity := by
  unfold infinity
  omega

theorem lt_infinity_of_ite {m magnitude : Nat}
    (h : (if m < infinity then some m else none) = some magnitude) : magnitude < infinity := by
  obtain ⟨hlt, hm⟩ := Option.ite_none_right_eq_some.mp h
  cases hm
  exact hlt

theorem nearestMagnitude_lt {num den magnitude : Nat}
    (h : nearestMagnitude num den = some magnitude) : magnitude < infinity := by
  unfold nearestMagnitude at h
  by_cases hnum : num = 0
  · rw [if_pos hnum] at h
    cases h
    exact zero_lt_infinity
  · rw [if_neg hnum] at h
    exact lt_infinity_of_ite h

-- The number nearest to a decimal is finite, if there is one.
theorem isFinite_of_ofDecimal {digits : Nat} {exponent : Int}
    (h : ofDecimal negative digits exponent = some x) : x.isFinite = true := by
  have hnearest : ∀ {num den}, (nearestMagnitude num den).map (ofMagnitude negative) = some x →
      x.isFinite = true := by
    intro num den hx
    obtain ⟨magnitude, hmagnitude, rfl⟩ := Option.map_eq_some_iff.mp hx
    exact isFinite_ofMagnitude (nearestMagnitude_lt hmagnitude)
  unfold ofDecimal at h
  dsimp only at h
  by_cases hzero : digits = 0 ∨ exponent + (Nat.toDigits 10 digits).length < -330
  · rw [if_pos hzero] at h
    cases h
    exact isFinite_ofMagnitude zero_lt_infinity
  · rw [if_neg hzero] at h
    obtain ⟨-, h⟩ := Option.ite_none_left_eq_some.mp h
    by_cases hexponent : 0 ≤ exponent
    · rw [if_pos hexponent] at h
      exact hnearest h
    · rw [if_neg hexponent] at h
      exact hnearest h

end Number

-- All numbers in a JSON value are finite.
inductive Json.Finite : Json → Prop where
  | null : Finite .null
  | bool (b : Bool) : Finite (.bool b)
  | int (i : Int) : Finite (.int i)
  | number {x : Number} : x.isFinite → Finite (.number x)
  | text (s : String) : Finite (.text s)
  | array {items : List Json} : (∀ item ∈ items, Finite item) → Finite (.array items)
  | object {members : List (String × Json)} : (∀ member ∈ members, Finite member.2) →
    Finite (.object members)

theorem JsonNumeral.finite_toJson? {n : JsonNumeral} {j : Json} (h : n.toJson? = some j) :
    j.Finite := by
  unfold toJson? at h
  cases hinteger : n.integer? with
  | some i =>
    simp only [hinteger, Option.some.injEq] at h
    rw [← h]
    exact .int i
  | none =>
    simp only [hinteger] at h
    obtain ⟨x, hx, rfl⟩ := Option.map_eq_some_iff.mp h
    exact .number (Number.isFinite_of_ofDecimal hx)

namespace JsonSource

mutual
theorem finite_toJson? (s : JsonSource) {j : Json} (h : s.toJson? = some j) : j.Finite := by
  cases s with
  | null =>
    cases h
    exact .null
  | bool b =>
    cases h
    exact .bool b
  | numeral n => exact JsonNumeral.finite_toJson? h
  | text s =>
    obtain ⟨t, -, rfl⟩ := Option.map_eq_some_iff.mp h
    exact .text t
  | array items =>
    obtain ⟨values, hvalues, rfl⟩ := Option.map_eq_some_iff.mp h
    exact .array (finite_itemsToJson? items hvalues)
  | object members =>
    obtain ⟨values, hvalues, rfl⟩ := Option.map_eq_some_iff.mp h
    exact .object (finite_membersToJson? members hvalues)

theorem finite_itemsToJson? (items : List JsonSource) {values : List Json}
    (h : itemsToJson? items = some values) : ∀ value ∈ values, value.Finite := by
  cases items with
  | nil =>
    cases h
    simp
  | cons s rest =>
    simp only [itemsToJson?, Option.bind_eq_bind, Option.bind_eq_some_iff] at h
    obtain ⟨first, hfirst, others, hothers, hvalues⟩ := h
    cases hvalues
    exact List.forall_mem_cons.mpr ⟨finite_toJson? s hfirst, finite_itemsToJson? rest hothers⟩

theorem finite_membersToJson? (members : List (Option String × JsonSource))
    {values : List (String × Json)} (h : membersToJson? members = some values) :
    ∀ value ∈ values, value.2.Finite := by
  cases members with
  | nil =>
    cases h
    simp
  | cons member rest =>
    obtain ⟨key, s⟩ := member
    simp only [membersToJson?, Option.bind_eq_bind, Option.bind_eq_some_iff] at h
    obtain ⟨k, -, first, hfirst, others, hothers, hvalues⟩ := h
    cases hvalues
    exact List.forall_mem_cons.mpr ⟨finite_toJson? s hfirst, finite_membersToJson? rest hothers⟩
end

end JsonSource

namespace Json

variable {α : Type} {key : String} {j v : Json} {read : Json → Option α} {P : α → Prop} {x : α}

namespace Finite

theorem field? (hj : j.Finite) (h : j.field? key = some v) : v.Finite := by
  cases hj with
  | object hmembers => exact hmembers _ (mem_of_lookupLast h)
  | _ => cases h

theorem record? {fields : List String} {r : Json} (hj : j.Finite)
    (h : j.record? fields = some r) : r.Finite := by
  cases hj with
  | object hmembers =>
    cases h
    exact .object hmembers
  | @array items hitems =>
    obtain ⟨-, hr⟩ := Option.ite_none_right_eq_some.mp h
    cases hr
    refine .object ?_
    rintro ⟨name, v⟩ hmember
    exact hitems v (List.of_mem_zip hmember).2
  | _ => cases h

theorem variant? {inner : Bool} {kinds : List (String × List String)} {name : String} {r : Json}
    (hj : j.Finite) (h : j.variant? inner kinds = some (name, r)) : r.Finite := by
  obtain ⟨kind, rest, fields, htagged, -, -, hr⟩ := variant?_eq_some.mp h
  have hrest : rest.Finite := by
    cases hj with
    | object hmembers =>
      obtain ⟨_, -, hpair⟩ := Option.map_eq_some_iff.mp htagged
      cases hpair
      exact .object hmembers
    | @array items hitems =>
      cases items with
      | nil => cases htagged
      | cons first others =>
        cases htagged
        exact .array (List.forall_mem_cons.mp hitems).2
    | _ => cases htagged
  exact hrest.record? hr

theorem required? (hj : j.Finite) (hread : ∀ v x, v.Finite → read v = some x → P x)
    (h : j.required? key read = some x) : P x := by
  obtain ⟨v, hv, hx⟩ := Option.bind_eq_some_iff.mp h
  exact hread v x (hj.field? hv) hx

theorem array? {items : List Json} (hj : j.Finite) (h : j.array? = some items) :
    ∀ item ∈ items, item.Finite := by
  cases hj with
  | array hitems =>
    cases h
    exact hitems
  | _ => cases h

theorem mapM {items : List Json} {l : List α} (hitems : ∀ item ∈ items, item.Finite)
    (hread : ∀ item ∈ items, ∀ x, item.Finite → read item = some x → P x)
    (h : items.mapM read = some l) : ∀ x ∈ l, P x := by
  induction items generalizing l with
  | nil =>
    cases h
    simp
  | cons item rest ih =>
    rw [List.mapM_cons, Option.bind_eq_bind, Option.bind_eq_some_iff] at h
    obtain ⟨x, hx, h⟩ := h
    obtain ⟨others, hothers, hl⟩ := Option.bind_eq_some_iff.mp h
    cases hl
    obtain ⟨hitem, hrest⟩ := List.forall_mem_cons.mp hitems
    obtain ⟨hreadItem, hreadRest⟩ := List.forall_mem_cons.mp hread
    exact List.forall_mem_cons.mpr ⟨hreadItem x hitem hx, ih hrest hreadRest hothers⟩

theorem list? {l : List α} (hj : j.Finite) (hread : ∀ v x, v.Finite → read v = some x → P x)
    (h : list? read j = some l) : ∀ x ∈ l, P x := by
  obtain ⟨items, hitems, h⟩ := Option.bind_eq_some_iff.mp h
  exact mapM (hj.array? hitems) (fun item _ => hread item) h

-- The items of an array that is a member are smaller than what all members are smaller than.
theorem mapM_required? {items : List Json} {l : List α} {size : Nat} (hj : j.Finite)
    (hitems : j.required? key Json.array? = some items)
    (hsize : ∀ v, j.field? key = some v → sizeOf v < size)
    (hread : ∀ item x, sizeOf item < size → item.Finite → read item = some x → P x)
    (h : items.mapM read = some l) : ∀ x ∈ l, P x := by
  obtain ⟨v, hv, hlt⟩ := sizeOf_required?_array? hitems
  have hv' := hsize v hv
  refine mapM (hj.required? (fun _ _ => array?) hitems) ?_ h
  intro item hitem x
  have hitem' := List.sizeOf_lt_of_mem hitem
  exact hread item x (by omega)

end Finite

-- A JSON text has no way to write a number that is not finite.
theorem finite_of_parse {cs : List Char} {j : Json} (h : parse cs = some j) : j.Finite := by
  obtain ⟨s, -, hs⟩ := Option.bind_eq_some_iff.mp h
  exact s.finite_toJson? hs

end Json

end WikiQuery
