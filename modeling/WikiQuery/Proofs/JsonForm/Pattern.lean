import WikiQuery.JsonForm.Pattern
import WikiQuery.Proofs.JsonForm.Value

namespace WikiQuery

namespace Clause

-- All numbers in a clause are finite.
inductive Finite : Clause → Prop where
  | triple (s : Term) (p : Property) (o : Term) (closure : Option SubqueryId) :
    Finite (.triple s p o closure)
  | hasValue (s : Variable) (p : Property) (closure : Option SubqueryId) :
    Finite (.hasValue s p closure)
  | inNamespace (s : Variable) (number : Int32) : Finite (.inNamespace s number)
  | inCategory (s : Variable) (ids : List Nat) (closure : Option SubqueryId) :
    Finite (.inCategory s ids closure)
  | sortKey (s key : Variable) : Finite (.sortKey s key)
  | filter {f : Filter} : f.Finite → Finite (.filter f)
  | union {groups : List (List Clause)} : (∀ group ∈ groups, ∀ clause ∈ group, Finite clause) →
    Finite (.union groups)

theorem listToJson_eq (clauses : List Clause) : listToJson clauses = clauses.map toJson := by
  induction clauses with
  | nil => rw [listToJson, List.map_nil]
  | cons clause rest ih => rw [listToJson, ih, List.map_cons]

theorem groupsToJson_eq (groups : List (List Clause)) :
    groupsToJson groups = groups.map Pattern.toJson := by
  induction groups with
  | nil => rw [groupsToJson, List.map_nil]
  | cons group rest ih => rw [groupsToJson, ih, List.map_cons, Pattern.toJson]

theorem listOfJson?_eq (inner : Bool) (items : List Json) :
    listOfJson? inner items = items.mapM (ofJson? inner) := by
  induction items with
  | nil => rw [listOfJson?, List.mapM_nil]
  | cons item rest ih => rw [listOfJson?, ih, List.mapM_cons]

theorem groupsOfJson?_eq (groups : List Json) :
    groupsOfJson? groups = groups.mapM (Pattern.ofJson? true) := by
  induction groups with
  | nil => rw [groupsOfJson?, List.mapM_nil]
  | cons group rest ih =>
    rw [groupsOfJson?, ih, List.mapM_cons, Pattern.ofJson?]
    simp [Option.bind_assoc]

@[simp] theorem closureOfJson?_of_none {j : Json} (h : j.field? "hierarchy" = none) :
    closureOfJson? j = some none := Json.optional?_of_none h

theorem closureOfJson?_of_some (id : SubqueryId) {j : Json}
    (h : j.field? "hierarchy" = some id.toJson) : closureOfJson? j = some (some id) := by
  rw [closureOfJson?, Json.optional?_of_some h nofun, SubqueryId.ofJson?_toJson, Option.map_some]

end Clause

@[simp] theorem Term.ofJson?_toJson (t : Term) : Term.ofJson? t.toJson = some t := by
  cases t with
  | entity v => simp [Term.ofJson?, Term.kinds, Term.toJson]
  | resource r => simp [Term.ofJson?, Term.kinds, Term.toJson]

namespace Pattern

def Finite (p : Pattern) : Prop := ∀ clause ∈ p, clause.Finite

theorem ofJson?_toJson_of {inner : Bool} {p : Pattern}
    (h : ∀ clause ∈ p, Clause.ofJson? inner clause.toJson = some clause) :
    ofJson? inner p.toJson = some p := by
  have helements : Clause.elements? p.toJson = some (p.map Clause.toJson) := by
    rw [toJson, Clause.listToJson_eq]
    rfl
  rw [ofJson?, helements, Option.bind_eq_bind, Option.bind_some, Clause.listOfJson?_eq]
  exact Json.mapM_map h

end Pattern

namespace Clause

theorem variant?_tagged {kind : String} {members : List (String × Json)}
    (hmem : kind ∈ kinds.map Prod.fst) (h : Json.lookupLast "kind" members = none) (inner : Bool) :
    (tagged kind members).variant? inner kinds = some (kind, tagged kind members) := by
  simp [tagged, h, hmem]

theorem ofJson?_toJson {clause : Clause} (h : clause.Finite) (inner : Bool) :
    ofJson? inner clause.toJson = some clause := by
  induction h generalizing inner with
  | triple s p o closure =>
    cases closure with
    | none =>
      rw [toJson, ofJson?, Option.attach_eq_some _ ⟨_, variant?_tagged (by decide) rfl inner⟩]
      simp [tagged, closureMember]
    | some id =>
      rw [toJson, ofJson?, Option.attach_eq_some _ ⟨_, variant?_tagged (by decide) rfl inner⟩]
      simp [tagged, closureMember, closureOfJson?_of_some id]
  | hasValue s p closure =>
    cases closure with
    | none =>
      rw [toJson, ofJson?, Option.attach_eq_some _ ⟨_, variant?_tagged (by decide) rfl inner⟩]
      simp [tagged, closureMember]
    | some id =>
      rw [toJson, ofJson?, Option.attach_eq_some _ ⟨_, variant?_tagged (by decide) rfl inner⟩]
      simp [tagged, closureMember, closureOfJson?_of_some id]
  | inNamespace s number =>
    rw [toJson, ofJson?, Option.attach_eq_some _ ⟨_, variant?_tagged (by decide) rfl inner⟩]
    simp [tagged]
  | inCategory s ids closure =>
    cases closure with
    | none =>
      rw [toJson, ofJson?, Option.attach_eq_some _ ⟨_, variant?_tagged (by decide) rfl inner⟩]
      simp [tagged, closureMember, Json.list?_array]
    | some id =>
      rw [toJson, ofJson?, Option.attach_eq_some _ ⟨_, variant?_tagged (by decide) rfl inner⟩]
      simp [tagged, closureMember, Json.list?_array, closureOfJson?_of_some id]
  | sortKey s key =>
    rw [toJson, ofJson?, Option.attach_eq_some _ ⟨_, variant?_tagged (by decide) rfl inner⟩]
    simp [tagged]
  | filter hf =>
    rw [toJson, ofJson?, Option.attach_eq_some _ ⟨_, variant?_tagged (by decide) rfl inner⟩]
    simp [tagged, Filter.ofJson?_toJson hf]
  | @union groups _ ih =>
    have hgroups : (groups.map Pattern.toJson).mapM (Pattern.ofJson? true) = some groups :=
      Json.mapM_map fun group hgroup => Pattern.ofJson?_toJson_of fun clause hclause =>
        ih group hgroup clause hclause true
    rw [toJson, ofJson?, Option.attach_eq_some _ ⟨_, variant?_tagged (by decide) rfl inner⟩]
    simp [tagged, groupsToJson_eq, groupsOfJson?_eq, hgroups]

end Clause

theorem Pattern.ofJson?_toJson {p : Pattern} (h : p.Finite) (inner : Bool) :
    ofJson? inner p.toJson = some p :=
  ofJson?_toJson_of fun clause hclause => Clause.ofJson?_toJson (h clause hclause) inner

section Decoded

variable {j : Json}

-- The clauses of a pattern are decoded from smaller values.
theorem Pattern.finite_of_smaller {inner : Bool} {p : Pattern} (hj : j.Finite)
    (hclause : ∀ item clause, sizeOf item < sizeOf j → item.Finite →
      Clause.ofJson? inner item = some clause → clause.Finite)
    (h : ofJson? inner j = some p) : p.Finite := by
  obtain ⟨items, hitems, h⟩ := Option.bind_eq_some_iff.mp h
  obtain ⟨r, hr, hitems⟩ := Option.bind_eq_some_iff.mp hitems
  rw [Clause.listOfJson?_eq] at h
  exact (hj.record? hr).mapM_required? hitems (fun _ => Json.sizeOf_record? hr) hclause h

theorem Clause.finite_of_ofJson? {inner : Bool} {clause : Clause} (hj : j.Finite)
    (h : ofJson? inner j = some clause) : clause.Finite := by
  induction hsize : sizeOf j using Nat.strongRecOn generalizing j inner clause with
  | _ size ih =>
    subst hsize
    rw [ofJson?] at h
    obtain ⟨⟨⟨kind, r⟩, hr⟩, -, h⟩ := Option.bind_eq_some_iff.mp h
    have hfinite : r.Finite := hj.variant? hr
    dsimp only at h
    split_ifs at h
    · obtain ⟨s, -, h⟩ := Option.bind_eq_some_iff.mp h
      obtain ⟨p, -, h⟩ := Option.bind_eq_some_iff.mp h
      obtain ⟨o, -, h⟩ := Option.bind_eq_some_iff.mp h
      obtain ⟨closure, -, h⟩ := Option.bind_eq_some_iff.mp h
      cases h
      exact .triple s p o closure
    · obtain ⟨s, -, h⟩ := Option.bind_eq_some_iff.mp h
      obtain ⟨p, -, h⟩ := Option.bind_eq_some_iff.mp h
      obtain ⟨closure, -, h⟩ := Option.bind_eq_some_iff.mp h
      cases h
      exact .hasValue s p closure
    · obtain ⟨s, -, h⟩ := Option.bind_eq_some_iff.mp h
      obtain ⟨number, -, h⟩ := Option.bind_eq_some_iff.mp h
      cases h
      exact .inNamespace s number
    · obtain ⟨s, -, h⟩ := Option.bind_eq_some_iff.mp h
      obtain ⟨ids, -, h⟩ := Option.bind_eq_some_iff.mp h
      obtain ⟨closure, -, h⟩ := Option.bind_eq_some_iff.mp h
      cases h
      exact .inCategory s ids closure
    · obtain ⟨s, -, h⟩ := Option.bind_eq_some_iff.mp h
      obtain ⟨key, -, h⟩ := Option.bind_eq_some_iff.mp h
      cases h
      exact .sortKey s key
    · obtain ⟨f, hf, h⟩ := Option.bind_eq_some_iff.mp h
      cases h
      exact .filter (hfinite.required? (fun _ _ => Filter.finite_of_ofJson?) hf)
    · obtain ⟨⟨groups, hgroups⟩, -, h⟩ := Option.bind_eq_some_iff.mp h
      obtain ⟨decoded, hdecoded, h⟩ := Option.bind_eq_some_iff.mp h
      cases h
      rw [groupsOfJson?_eq] at hdecoded
      refine .union (hfinite.mapM_required? hgroups (fun _ => Json.sizeOf_variant? hr) ?_ hdecoded)
      intro group clauses hgroup hfinite hclauses
      refine Pattern.finite_of_smaller hfinite ?_ hclauses
      intro item clause hitem hfinite hdecoded
      exact ih (sizeOf item) (Nat.lt_trans hitem hgroup) hfinite hdecoded rfl

theorem Pattern.finite_of_ofJson? {inner : Bool} {p : Pattern} (hj : j.Finite)
    (h : ofJson? inner j = some p) : p.Finite :=
  finite_of_smaller hj (fun _ _ _ => Clause.finite_of_ofJson?) h

end Decoded

end WikiQuery
