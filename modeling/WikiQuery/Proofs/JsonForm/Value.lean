import Mathlib.Tactic.SplitIfs
import WikiQuery.JsonForm.Description
import WikiQuery.JsonForm.Filter
import WikiQuery.JsonForm.Value
import WikiQuery.Proofs.Json.Finite
import WikiQuery.Proofs.KeyMap

namespace WikiQuery

namespace Json

variable {α β : Type} {key : String} {j v : Json}

@[simp] theorem field?_object (members : List (String × Json)) :
    (Json.object members).field? key = lookupLast key members := rfl

@[simp] theorem lookupLast_nil : lookupLast key [] = none := rfl

@[simp] theorem lookupLast_cons (k : String) (w : Json) (rest : List (String × Json)) :
    lookupLast key ((k, w) :: rest) =
      (lookupLast key rest).or (if k = key then some w else none) := rfl

theorem lookupLast_append (first second : List (String × Json)) :
    lookupLast key (first ++ second) = (lookupLast key second).or (lookupLast key first) := by
  induction first with
  | nil => simp
  | cons member rest ih => rw [List.cons_append, lookupLast, ih, lookupLast, Option.or_assoc]

theorem lookupLast_eq_none {key : String} {members : List (String × Json)}
    (h : key ∉ members.map Prod.fst) : lookupLast key members = none := by
  cases hv : lookupLast key members with
  | none => rfl
  | some v => exact absurd (List.mem_map_of_mem (mem_of_lookupLast hv)) h

@[simp] theorem required?_object (members : List (String × Json)) (read : Json → Option α) :
    (Json.object members).required? key read = lookupLast key members >>= read := rfl

@[simp] theorem fieldOr_object (members : List (String × Json)) (default : α)
    (read : Json → Option α) : (Json.object members).fieldOr key default read =
      match lookupLast key members with
      | none => some default
      | some w => read w := rfl

@[simp] theorem record?_object (members : List (String × Json)) (fields : List String) :
    (Json.object members).record? fields = some (.object members) := rfl

@[simp] theorem kind?_text (inner : Bool) (kinds : List String) (s : String) :
    (Json.text s).kind? inner kinds = if s ∈ kinds then some s else none := rfl

theorem mem_of_kind? {inner : Bool} {kinds : List String} {name : String}
    (h : j.kind? inner kinds = some name) : name ∈ kinds := by
  cases j with
  | text s =>
    obtain ⟨hmem, heq⟩ := Option.ite_none_right_eq_some.mp h
    cases heq
    exact hmem
  | int i =>
    obtain ⟨-, hget⟩ := Option.ite_none_right_eq_some.mp h
    exact List.mem_of_getElem? hget
  | _ => cases h

-- An object with a kind is read as it is.
@[simp] theorem variant?_object (inner : Bool) (kinds : List (String × List String))
    (members : List (String × Json)) : (Json.object members).variant? inner kinds =
      (lookupLast "kind" members >>= Json.kind? inner (kinds.map Prod.fst)).map
        (·, .object members) := by
  rw [variant?, tagged?]
  cases lookupLast "kind" members with
  | none => rfl
  | some kind =>
    simp only [Option.map_some, Option.bind_eq_bind, Option.bind_some]
    cases hname : kind.kind? inner (kinds.map Prod.fst) with
    | none => rfl
    | some name =>
      obtain ⟨entry, hentry, rfl⟩ := List.mem_map.mp (mem_of_kind? hname)
      have hlookup : (kinds.lookup entry.1).isSome :=
        List.lookup_isSome_iff.mpr ⟨entry, hentry, beq_self_eq_true _⟩
      obtain ⟨fields, hfields⟩ := Option.isSome_iff_exists.mp hlookup
      simp only [Option.bind_some, hfields, record?_object, Option.map_some]
      rfl

@[simp] theorem text?_text (s : String) : (Json.text s).text? = some s := rfl

@[simp] theorem bool?_bool (b : Bool) : (Json.bool b).bool? = some b := rfl

@[simp] theorem array?_array (items : List Json) : (Json.array items).array? = some items := rfl

@[simp] theorem int32?_int (n : Int32) : int32? (.int n.toInt) = some n := by
  have hlo := n.le_toInt
  have hhi := n.toInt_lt
  have hrange : -0x80000000 ≤ n.toInt ∧ n.toInt < 0x80000000 := by omega
  simp only [int32?, hrange, and_self, ite_true, Int32.ofInt_toInt]

@[simp] theorem natural?_ofNat (n : Nat) : (Json.ofNat n).natural? = some n := by
  simp [Json.ofNat, natural?]

@[simp] theorem uint32?_ofNat (n : UInt32) : (Json.ofNat n.toNat).uint32? = some n := by
  have hhi := n.toNat_lt
  have hrange : (0 : Int) ≤ n.toNat ∧ (n.toNat : Int) < 0x100000000 := by omega
  simp only [Json.ofNat, uint32?, hrange, and_self, ite_true, Int.toNat_natCast, UInt32.ofNat_toNat]

theorem required?_of_some {read : Json → Option α} (h : j.field? key = some v) :
    j.required? key read = read v := by
  rw [required?, h, Option.bind_eq_bind, Option.bind_some]

theorem optional?_of_none {read : Json → Option α} (h : j.field? key = none) :
    j.optional? key read = some none := by
  simp [optional?, present?, h]

theorem optional?_of_some {read : Json → Option α} (h : j.field? key = some v) (hv : v ≠ .null) :
    j.optional? key read = (read v).map some := by
  have hpresent : j.present? key = some v := by
    unfold present?
    rw [h]
    cases v <;> first | rfl | exact absurd rfl hv
  rw [optional?, hpresent]

theorem mapM_map {encode : α → β} {decode : β → Option α} {l : List α}
    (h : ∀ x ∈ l, decode (encode x) = some x) : (l.map encode).mapM decode = some l := by
  induction l with
  | nil => rfl
  | cons x rest ih =>
    obtain ⟨hx, hrest⟩ := List.forall_mem_cons.mp h
    simp [hx, ih hrest]

theorem list?_array {encode : α → Json} {decode : Json → Option α} {l : List α}
    (h : ∀ x ∈ l, decode (encode x) = some x) :
    list? decode (.array (l.map encode)) = some l := mapM_map h

end Json

theorem Kind.ofName?_name (kind : Kind) : Kind.ofName? kind.name = some kind := by
  cases kind <;> decide

theorem Datatype.ofName?_name (t : Datatype) : Datatype.ofName? t.name = some t := by
  cases t <;> decide

theorem Comparator.ofName?_name (c : Comparator) : Comparator.ofName? c.name = some c := by
  cases c <;> decide

theorem Relation.ofName?_name (r : Relation) : Relation.ofName? r.name = some r := by
  cases r <;> decide

theorem Direction.ofName?_name (d : Direction) : Direction.ofName? d.name = some d := by
  cases d <;> decide

@[simp] theorem Variable.ofJson?_toJson (v : Variable) : Variable.ofJson? v.toJson = some v := rfl

@[simp] theorem Page.ofJson?_toJson (p : Page) : Page.ofJson? p.toJson = some p := by
  simp [Page.ofJson?, Page.toJson, Page.members]

@[simp] theorem Vocabulary.ofJson?_toJson (v : Vocabulary) :
    Vocabulary.ofJson? v.toJson = some v := by
  simp [Vocabulary.ofJson?, Vocabulary.toJson]

@[simp] theorem Resource.ofJson?_toJson (inner : Bool) (r : Resource) :
    Resource.ofJson? inner r.toJson = some r := by
  cases r with
  | page p => simp [Resource.ofJson?, Resource.kinds, Resource.toJson, Page.members, Page.ofJson?]
  | external v name => simp [Resource.ofJson?, Resource.kinds, Resource.toJson]

@[simp] theorem Property.ofJson?_toJson (p : Property) : Property.ofJson? p.toJson = some p := by
  obtain ⟨key, inverse, vocabulary⟩ := p
  cases vocabulary with
  | none => simp [Property.ofJson?, Property.toJson, Json.optional?_of_none]
  | some v =>
    have hv : v.toJson ≠ .null := nofun
    simp [Property.ofJson?, Property.toJson, Json.optional?_of_some (v := v.toJson) _ hv]

@[simp] theorem Datatype.ofJson?_toJson (inner : Bool) (t : Datatype) :
    Datatype.ofJson? inner t.toJson = some t := t.ofName?_name

@[simp] theorem Comparator.ofJson?_toJson (c : Comparator) :
    Comparator.ofJson? c.toJson = some c := c.ofName?_name

@[simp] theorem Relation.ofJson?_toJson (r : Relation) : Relation.ofJson? r.toJson = some r :=
  r.ofName?_name

@[simp] theorem Direction.ofJson?_toJson (d : Direction) : Direction.ofJson? d.toJson = some d :=
  d.ofName?_name

@[simp] theorem SubqueryId.ofJson?_toJson (id : SubqueryId) :
    SubqueryId.ofJson? id.toJson = some id := by
  simp [SubqueryId.ofJson?, SubqueryId.toJson]

@[simp] theorem Subquery.ofJson?_toJson (q : Subquery) : Subquery.ofJson? q.toJson = some q := by
  -- the members are read one by one: the bound of the depth is too large to compute with
  cases q with
  | categories ids depth =>
    have hkind : (Subquery.categories ids depth).toJson.variant? false Subquery.kinds =
        some ("category_hierarchy", (Subquery.categories ids depth).toJson) := by
      simp [Subquery.toJson, Subquery.kinds]
    have hdepth : (Subquery.categories ids depth).toJson.required? "depth" Json.uint32? =
        some depth := by
      rw [Json.required?_of_some rfl, Json.uint32?_ofNat]
    have hids : (Subquery.categories ids depth).toJson.required? "categories"
        (Json.list? Json.natural?) = some ids := by
      rw [Json.required?_of_some rfl]
      exact Json.list?_array fun id _ => Json.natural?_ofNat id
    rw [Subquery.ofJson?, hkind]
    simp only [Option.bind_eq_bind, Option.bind_some]
    rw [hdepth, hids]
    rfl
  | property p id depth =>
    have hkind : (Subquery.property p id depth).toJson.variant? false Subquery.kinds =
        some ("property_hierarchy", (Subquery.property p id depth).toJson) := by
      simp [Subquery.toJson, Subquery.kinds]
    have hdepth : (Subquery.property p id depth).toJson.required? "depth" Json.uint32? =
        some depth := by
      rw [Json.required?_of_some rfl, Json.uint32?_ofNat]
    have hid : (Subquery.property p id depth).toJson.required? "id" Json.natural? = some id := by
      rw [Json.required?_of_some rfl, Json.natural?_ofNat]
    have hp : (Subquery.property p id depth).toJson.required? "property" Property.ofJson? =
        some p := by
      rw [Json.required?_of_some rfl, Property.ofJson?_toJson]
    rw [Subquery.ofJson?, hkind]
    simp only [Option.bind_eq_bind, Option.bind_some]
    rw [hdepth, hid, hp]
    rfl

theorem SubqueryTable.ofJson?_toJson (t : SubqueryTable) :
    SubqueryTable.ofJson? t.toJson = some t := by
  simp [SubqueryTable.ofJson?, SubqueryTable.toJson, Json.list?_array]

namespace KeyMap

variable {α : Type}

theorem ofJson?_toJson {write : α → Json} {read : Json → Option α}
    (h : ∀ x, read (write x) = some x) (m : KeyMap α) :
    KeyMap.ofJson? read (m.toJson write) = some m := by
  have hsorted : (m.entries.map fun entry => (entry.1, write entry.2)).Pairwise
      fun a b => a.1 < b.1 := by
    rw [List.pairwise_map]
    exact m.sorted
  let members : KeyMap Json := ⟨m.entries.map fun entry => (entry.1, write entry.2), hsorted⟩
  have hmembers : members.entries.mapM (fun member => (read member.2).map (member.1, ·)) =
      some m.entries := by
    apply Json.mapM_map
    intro entry _
    simp [h]
  have hobject : (m.toJson write).object? = some members := congrArg some members.ofList_entries
  rw [KeyMap.ofJson?, hobject]
  show (List.mapM _ _ >>= fun members => (pure (ofList members) : Option (KeyMap α))) = _
  rw [hmembers]
  exact congrArg some m.ofList_entries

end KeyMap

theorem SortKeys.ofJson?_toJson (keys : SortKeys) : SortKeys.ofJson? keys.toJson = some keys :=
  KeyMap.ofJson?_toJson Direction.ofJson?_toJson keys

-- All numbers in a value are finite.
def Value.Finite : Value → Prop
  | .number x => x.isFinite
  | _ => True

def Operand.Finite : Operand → Prop
  | .value x => x.Finite
  | _ => True

def Test.Finite : Test → Prop
  | .compare left _ right => left.Finite ∧ right.Finite
  | .regex operand _ _ => operand.Finite

def Filter.Finite (f : Filter) : Prop := ∀ t ∈ f, t.Finite

theorem Value.ofJson?_toJson {v : Value} (h : v.Finite) (inner : Bool) :
    Value.ofJson? inner v.toJson = some v := by
  cases v with
  | page r => simp [Value.ofJson?, Value.parts?, Value.toJson, Value.datatype]
  | text s => simp [Value.ofJson?, Value.parts?, Value.toJson, Value.datatype]
  | number x =>
    have hx : x.isFinite = true := h
    simp [Value.ofJson?, Value.parts?, Value.toJson, Value.datatype, Number.toJson,
      Number.ofJson?, hx]
  | boolean b => simp [Value.ofJson?, Value.parts?, Value.toJson, Value.datatype]

theorem Operand.ofJson?_toJson {o : Operand} (h : o.Finite) :
    Operand.ofJson? o.toJson = some o := by
  cases o with
  | entity v => simp [Operand.ofJson?, Operand.kinds, Operand.toJson]
  | field name v => simp [Operand.ofJson?, Operand.kinds, Operand.toJson]
  | value x =>
    have hx : x.Finite := h
    simp [Operand.ofJson?, Operand.kinds, Operand.toJson, Value.ofJson?_toJson hx]
  | text s => simp [Operand.ofJson?, Operand.kinds, Operand.toJson]

theorem Test.ofJson?_toJson {t : Test} (h : t.Finite) (inner : Bool) :
    Test.ofJson? inner t.toJson = some t := by
  cases t with
  | compare left relation right =>
    simp [Test.ofJson?, Test.kinds, Test.toJson, Operand.ofJson?_toJson h.1,
      Operand.ofJson?_toJson h.2]
  | regex operand pattern negated =>
    have hoperand : operand.Finite := h
    simp [Test.ofJson?, Test.kinds, Test.toJson, Operand.ofJson?_toJson hoperand]

theorem Filter.ofJson?_toJson {f : Filter} (h : f.Finite) (inner : Bool) :
    Filter.ofJson? inner f.toJson = some f :=
  Json.list?_array fun t ht => Test.ofJson?_toJson (h t ht) inner

section Decoded

variable {inner : Bool} {j : Json}

-- What is decoded from a JSON value with finite numbers has finite numbers.
theorem Number.isFinite_of_ofJson? {x : Number} (hj : j.Finite) (h : Number.ofJson? j = some x) :
    x.isFinite = true := by
  cases hj with
  | int i => exact isFinite_of_ofDecimal h
  | number hx =>
    cases h
    exact hx
  | _ => cases h

theorem Value.finite_of_parts? {t : Datatype} {content : Json} (hj : j.Finite)
    (h : Value.parts? inner j = some (t, content)) : content.Finite := by
  rcases j with _ | _ | _ | _ | _ | (_ | ⟨tag, _ | ⟨value, _ | _⟩⟩) | members
  case object =>
    obtain ⟨t', -, h⟩ := Option.bind_eq_some_iff.mp h
    obtain ⟨value, hvalue, h⟩ := Option.bind_eq_some_iff.mp h
    cases h
    exact hj.field? hvalue
  case array.cons.cons.nil =>
    obtain ⟨name, -, h⟩ := Option.bind_eq_some_iff.mp h
    obtain ⟨t', -, h⟩ := Option.bind_eq_some_iff.mp h
    cases h
    exact hj.array? rfl content (by simp)
  all_goals cases h

theorem Value.finite_of_ofJson? {v : Value} (hj : j.Finite) (h : Value.ofJson? inner j = some v) :
    v.Finite := by
  obtain ⟨⟨t, content⟩, hparts, h⟩ := Option.bind_eq_some_iff.mp h
  cases t with
  | number =>
    obtain ⟨x, hx, rfl⟩ := Option.map_eq_some_iff.mp h
    exact Number.isFinite_of_ofJson? (Value.finite_of_parts? hj hparts) hx
  | page | text | boolean =>
    obtain ⟨x, -, rfl⟩ := Option.map_eq_some_iff.mp h
    trivial

theorem Operand.finite_of_ofJson? {o : Operand} (hj : j.Finite) (h : Operand.ofJson? j = some o) :
    o.Finite := by
  obtain ⟨⟨kind, r⟩, hr, h⟩ := Option.bind_eq_some_iff.mp h
  dsimp only at h
  split_ifs at h
  · obtain ⟨v, -, h⟩ := Option.bind_eq_some_iff.mp h
    cases h
    trivial
  · obtain ⟨name, -, h⟩ := Option.bind_eq_some_iff.mp h
    obtain ⟨v, -, h⟩ := Option.bind_eq_some_iff.mp h
    cases h
    trivial
  · obtain ⟨v, hv, h⟩ := Option.bind_eq_some_iff.mp h
    cases h
    have hfinite : v.Finite := (hj.variant? hr).required? (fun _ _ => Value.finite_of_ofJson?) hv
    exact hfinite
  · obtain ⟨s, -, h⟩ := Option.bind_eq_some_iff.mp h
    cases h
    trivial

theorem Test.finite_of_ofJson? {t : Test} (hj : j.Finite) (h : Test.ofJson? inner j = some t) :
    t.Finite := by
  obtain ⟨⟨kind, r⟩, hr, h⟩ := Option.bind_eq_some_iff.mp h
  have hoperand : ∀ {key o}, r.required? key Operand.ofJson? = some o → o.Finite :=
    (hj.variant? hr).required? fun _ _ => Operand.finite_of_ofJson?
  dsimp only at h
  split_ifs at h
  · obtain ⟨left, hleft, h⟩ := Option.bind_eq_some_iff.mp h
    obtain ⟨relation, -, h⟩ := Option.bind_eq_some_iff.mp h
    obtain ⟨right, hright, h⟩ := Option.bind_eq_some_iff.mp h
    cases h
    exact ⟨hoperand hleft, hoperand hright⟩
  · obtain ⟨operand, hoperand', h⟩ := Option.bind_eq_some_iff.mp h
    obtain ⟨pattern, -, h⟩ := Option.bind_eq_some_iff.mp h
    obtain ⟨negated, -, h⟩ := Option.bind_eq_some_iff.mp h
    cases h
    exact hoperand hoperand'

theorem Filter.finite_of_ofJson? {f : Filter} (hj : j.Finite)
    (h : Filter.ofJson? inner j = some f) : f.Finite :=
  hj.list? (fun _ _ => Test.finite_of_ofJson?) h

end Decoded

end WikiQuery
