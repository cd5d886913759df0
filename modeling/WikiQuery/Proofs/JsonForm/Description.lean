import WikiQuery.Proofs.JsonForm.Value

namespace WikiQuery.Description

-- All numbers in a description are finite.
inductive Finite : Description → Prop where
  | thing : Finite .thing
  | inNamespace (number : Int32) : Finite (.inNamespace number)
  | inCategory (categories : List Page) : Finite (.inCategory categories)
  | concept (page : Page) : Finite (.concept page)
  | value (p : Property) (comparator : Comparator) {v : Value} : v.Finite →
    Finite (.value p comparator v)
  | someProperty (p : Property) {inner : Description} : Finite inner →
    Finite (.someProperty p inner)
  | conjunction {parts : List Description} : (∀ part ∈ parts, Finite part) →
    Finite (.conjunction parts)
  | disjunction {parts : List Description} : (∀ part ∈ parts, Finite part) →
    Finite (.disjunction parts)

theorem listToJson_eq (parts : List Description) : listToJson parts = parts.map toJson := by
  induction parts with
  | nil => rw [listToJson, List.map_nil]
  | cons part rest ih => rw [listToJson, ih, List.map_cons]

theorem listOfJson?_eq (items : List Json) : listOfJson? items = items.mapM (ofJson? true) := by
  induction items with
  | nil => rw [listOfJson?, List.mapM_nil]
  | cons item rest ih => rw [listOfJson?, ih, List.mapM_cons]

theorem variant?_tagged {members : List (String × Json)}
    (h : Json.lookupLast "kind" members = none) (inner : Bool) (kind : Kind) :
    (tagged kind members).variant? inner kinds = some (kind.name, tagged kind members) := by
  have hmem : kind.name ∈ kinds.map Prod.fst := by
    cases kind <;> decide
  simp [tagged, h, hmem]

theorem ofJson?_toJson {d : Description} (h : d.Finite) (inner : Bool) :
    ofJson? inner d.toJson = some d := by
  induction h generalizing inner with
  | thing =>
    rw [toJson, ofJson?, Option.attach_eq_some _ ⟨_, variant?_tagged rfl inner _⟩]
    simp [Kind.ofName?_name]
  | inNamespace number =>
    rw [toJson, ofJson?, Option.attach_eq_some _ ⟨_, variant?_tagged rfl inner _⟩]
    simp [Kind.ofName?_name, tagged]
  | inCategory categories =>
    rw [toJson, ofJson?, Option.attach_eq_some _ ⟨_, variant?_tagged rfl inner _⟩]
    simp [Kind.ofName?_name, tagged, Json.list?_array]
  | concept page =>
    rw [toJson, ofJson?, Option.attach_eq_some _ ⟨_, variant?_tagged rfl inner _⟩]
    simp [Kind.ofName?_name, tagged]
  | value p comparator hv =>
    rw [toJson, ofJson?, Option.attach_eq_some _ ⟨_, variant?_tagged rfl inner _⟩]
    simp [Kind.ofName?_name, tagged, Value.ofJson?_toJson hv]
  | someProperty p _ ih =>
    rw [toJson, ofJson?, Option.attach_eq_some _ ⟨_, variant?_tagged rfl inner _⟩]
    simp [Kind.ofName?_name, tagged, ih]
  | @conjunction parts _ ih =>
    have hparts : (parts.map toJson).mapM (ofJson? true) = some parts :=
      Json.mapM_map fun part hpart => ih part hpart true
    rw [toJson, ofJson?, Option.attach_eq_some _ ⟨_, variant?_tagged rfl inner _⟩]
    simp [Kind.ofName?_name, tagged, listToJson_eq, listOfJson?_eq, hparts]
  | @disjunction parts _ ih =>
    have hparts : (parts.map toJson).mapM (ofJson? true) = some parts :=
      Json.mapM_map fun part hpart => ih part hpart true
    rw [toJson, ofJson?, Option.attach_eq_some _ ⟨_, variant?_tagged rfl inner _⟩]
    simp [Kind.ofName?_name, tagged, listToJson_eq, listOfJson?_eq, hparts]

-- With the kind in front, an array is read as the object with these fields.
theorem ofJson?_array (inner : Bool) (kind : Kind) (items : List Json)
    (h : items.length ≤ (fields kind).length) :
    ofJson? inner (.array (.text kind.name :: items)) =
      ofJson? inner (tagged kind ((fields kind).zip items)) := by
  have hmem : kind.name ∈ kinds.map Prod.fst := by
    cases kind <;> decide
  have hlookup : kinds.lookup kind.name = some (fields kind) := by
    cases kind <;> decide
  have harray : (Json.array (.text kind.name :: items)).variant? inner kinds =
      some (kind.name, .object ((fields kind).zip items)) :=
    Json.variant?_eq_some.mpr ⟨_, _, _, rfl, if_pos hmem, hlookup, if_pos h⟩
  have hkind : Json.lookupLast "kind" ((fields kind).zip items) = none := by
    apply Json.lookupLast_eq_none
    intro hmem
    obtain ⟨member, hmember, hkey⟩ := List.mem_map.mp hmem
    have hfield := (List.of_mem_zip hmember).1
    rw [hkey] at hfield
    cases kind <;> simp [fields] at hfield
  rw [ofJson?, Option.attach_eq_some _ ⟨_, harray⟩, ofJson?,
    Option.attach_eq_some _ ⟨_, variant?_tagged hkind inner kind⟩]
  cases kind <;> simp [Kind.ofName?_name, tagged]

theorem finite_of_ofJson? {inner : Bool} {j : Json} {d : Description} (hj : j.Finite)
    (h : ofJson? inner j = some d) : d.Finite := by
  induction hsize : sizeOf j using Nat.strongRecOn generalizing j inner d with
  | _ size ih =>
    subst hsize
    have hsmaller : ∀ item part, sizeOf item < sizeOf j → item.Finite →
        ofJson? true item = some part → part.Finite :=
      fun item part hlt hitem hpart => ih (sizeOf item) hlt hitem hpart rfl
    rw [ofJson?] at h
    obtain ⟨⟨⟨name, r⟩, hr⟩, -, h⟩ := Option.bind_eq_some_iff.mp h
    obtain ⟨kind, -, h⟩ := Option.bind_eq_some_iff.mp h
    have hfinite : r.Finite := hj.variant? hr
    have hparts : ∀ {items parts}, r.required? "children" Json.array? = some items →
        listOfJson? items = some parts → ∀ part ∈ parts, part.Finite := by
      intro items parts hitems hparts
      rw [listOfJson?_eq] at hparts
      exact hfinite.mapM_required? hitems (fun _ => Json.sizeOf_variant? hr) hsmaller hparts
    cases kind with
    | thing =>
      cases h
      exact .thing
    | inNamespace =>
      obtain ⟨number, -, h⟩ := Option.bind_eq_some_iff.mp h
      cases h
      exact .inNamespace number
    | inCategory =>
      obtain ⟨categories, -, h⟩ := Option.bind_eq_some_iff.mp h
      cases h
      exact .inCategory categories
    | concept =>
      obtain ⟨page, -, h⟩ := Option.bind_eq_some_iff.mp h
      cases h
      exact .concept page
    | value =>
      obtain ⟨p, -, h⟩ := Option.bind_eq_some_iff.mp h
      obtain ⟨comparator, -, h⟩ := Option.bind_eq_some_iff.mp h
      obtain ⟨v, hv, h⟩ := Option.bind_eq_some_iff.mp h
      cases h
      exact .value p comparator (hfinite.required? (fun _ _ => Value.finite_of_ofJson?) hv)
    | someProperty =>
      obtain ⟨p, -, h⟩ := Option.bind_eq_some_iff.mp h
      obtain ⟨⟨definition, hfield⟩, -, h⟩ := Option.bind_eq_some_iff.mp h
      obtain ⟨part, hpart, h⟩ := Option.bind_eq_some_iff.mp h
      cases h
      exact .someProperty p
        (hsmaller _ part (Json.sizeOf_variant? hr hfield) (hfinite.field? hfield) hpart)
    | conjunction =>
      obtain ⟨⟨items, hitems⟩, -, h⟩ := Option.bind_eq_some_iff.mp h
      obtain ⟨parts, hdecoded, h⟩ := Option.bind_eq_some_iff.mp h
      cases h
      exact .conjunction (hparts hitems hdecoded)
    | disjunction =>
      obtain ⟨⟨items, hitems⟩, -, h⟩ := Option.bind_eq_some_iff.mp h
      obtain ⟨parts, hdecoded, h⟩ := Option.bind_eq_some_iff.mp h
      cases h
      exact .disjunction (hparts hitems hdecoded)

end WikiQuery.Description
