import WikiQuery.KeyMap
import WikiQuery.Number.Basic

namespace WikiQuery

-- A JSON value. Whole numbers and floating-point numbers are told apart, and an object keeps its
-- members in the order in which they are written.
inductive Json where
  | null
  | bool (b : Bool)
  | int (i : Int)
  | number (x : Number)
  | text (s : String)
  | array (items : List Json)
  | object (members : List (String × Json))

namespace Json

instance : Inhabited Json := ⟨.null⟩

-- The last value given for a key.
def lookupLast (key : String) : List (String × Json) → Option Json
  | [] => none
  | (k, v) :: rest => (lookupLast key rest).or (if k = key then some v else none)

-- A member of an object by its name; of a name that is repeated, the last member.
def field? (j : Json) (key : String) : Option Json :=
  match j with
  | .object members => lookupLast key members
  | _ => none

-- A member that may be left out or be null.
def present? (j : Json) (key : String) : Option Json :=
  match j.field? key with
  | some .null => none
  | other => other

def text? : Json → Option String
  | .text s => some s
  | _ => none

def bool? : Json → Option Bool
  | .bool b => some b
  | _ => none

def array? : Json → Option (List Json)
  | .array items => some items
  | _ => none

-- The members of an object; of a name that is repeated, the last member.
def object? : Json → Option (KeyMap Json)
  | .object members => some (.ofList members)
  | _ => none

def natural? : Json → Option Nat
  | .int i => if 0 ≤ i then some i.toNat else none
  | _ => none

def int32? : Json → Option Int32
  | .int i => if -0x80000000 ≤ i ∧ i < 0x80000000 then some (Int32.ofInt i) else none
  | _ => none

def uint32? : Json → Option UInt32
  | .int i => if 0 ≤ i ∧ i < 0x100000000 then some (UInt32.ofNat i.toNat) else none
  | _ => none

-- A member that need not be there and then has a default; if it is there it has to be readable.
def fieldOr {α : Type} (j : Json) (key : String) (default : α) (read : Json → Option α) :
    Option α :=
  match j.field? key with
  | none => some default
  | some v => read v

-- A member that is absent when it is left out or null.
def optional? {α : Type} (j : Json) (key : String) (read : Json → Option α) :
    Option (Option α) :=
  match j.present? key with
  | none => some none
  | some v => (read v).map some

def required? {α : Type} (j : Json) (key : String) (read : Json → Option α) : Option α :=
  j.field? key >>= read

-- Every item of an array.
def list? {α : Type} (read : Json → Option α) (j : Json) : Option (List α) :=
  j.array? >>= fun items => items.mapM read

-- A name: a text, or an object whose only member has that name and is null. `inner` says that it
-- stands within an object that has a kind; there the member may also be an empty object.
def name? (inner : Bool) : Json → Option String
  | .text s => some s
  | .object members =>
    match (KeyMap.ofList members).entries with
    | [(s, .null)] => some s
    | [(s, .object [])] => if inner then some s else none
    | _ => none
  | _ => none

-- What is read field by field: an object, or an array that has the values of the fields in their
-- order. The last fields can be missing in the array, but it has nothing after them.
def record? (fields : List String) : Json → Option Json
  | .object members => some (.object members)
  | .array items => if items.length ≤ fields.length then some (.object (fields.zip items)) else none
  | _ => none

-- A kind out of a list: its name, or, within an object that has a kind itself, also its place in the
-- list.
def kind? (inner : Bool) (kinds : List String) : Json → Option String
  | .text s => if s ∈ kinds then some s else none
  | .int i => if inner && 0 ≤ i then kinds[i.toNat]? else none
  | _ => none

-- What has a kind, with the rest of it: an object with the kind as a member, or an array with the
-- kind in front.
def tagged? : Json → Option (Json × Json)
  | .object members => (lookupLast "kind" members).map (·, .object members)
  | .array (kind :: items) => some (kind, .array items)
  | _ => none

-- The name of a kind and what is read field by field for it, given which fields belong to each kind.
def variant? (inner : Bool) (kinds : List (String × List String)) (j : Json) :
    Option (String × Json) := do
  let (kind, rest) ← j.tagged?
  let name ← kind.kind? inner (kinds.map Prod.fst)
  let fields ← kinds.lookup name
  return (name, ← rest.record? fields)

theorem mem_of_lookupLast {key : String} {members : List (String × Json)} {v : Json}
    (h : lookupLast key members = some v) : (key, v) ∈ members := by
  induction members with
  | nil => cases h
  | cons member rest ih =>
    obtain ⟨k, w⟩ := member
    rw [lookupLast] at h
    cases hrest : lookupLast key rest with
    | some u =>
      rw [hrest, Option.some_or] at h
      exact List.mem_cons_of_mem _ (ih (hrest.trans h))
    | none =>
      rw [hrest, Option.none_or] at h
      obtain ⟨rfl, hw⟩ := Option.ite_none_right_eq_some.mp h
      cases hw
      exact List.mem_cons_self ..

-- A member is smaller than the object, so a reader may call itself on members.
theorem sizeOf_field? {j v : Json} {key : String} (h : j.field? key = some v) :
    sizeOf v < sizeOf j := by
  cases j with
  | object members =>
    have hmem := List.sizeOf_lt_of_mem (mem_of_lookupLast h)
    simp only [Prod.mk.sizeOf_spec] at hmem
    simp only [Json.object.sizeOf_spec]
    omega
  | _ => cases h

theorem sizeOf_record? {j r v : Json} {fields : List String} {key : String}
    (hr : j.record? fields = some r) (h : r.field? key = some v) : sizeOf v < sizeOf j := by
  cases j with
  | object members =>
    cases hr
    exact sizeOf_field? h
  | array items =>
    obtain ⟨-, hr⟩ := Option.ite_none_right_eq_some.mp hr
    cases hr
    have hmem := List.sizeOf_lt_of_mem (List.of_mem_zip (mem_of_lookupLast h)).2
    simp only [Json.array.sizeOf_spec]
    omega
  | _ => cases hr

theorem sizeOf_tagged? {j kind rest : Json} (h : j.tagged? = some (kind, rest)) :
    sizeOf rest ≤ sizeOf j := by
  cases j with
  | object members =>
    obtain ⟨_, -, hpair⟩ := Option.map_eq_some_iff.mp h
    cases hpair
    exact Nat.le_refl _
  | array items =>
    cases items with
    | nil => cases h
    | cons first others =>
      cases h
      simp only [Json.array.sizeOf_spec, List.cons.sizeOf_spec]
      omega
  | _ => cases h

theorem variant?_eq_some {inner : Bool} {kinds : List (String × List String)} {j r : Json}
    {name : String} : j.variant? inner kinds = some (name, r) ↔
      ∃ kind rest fields, j.tagged? = some (kind, rest) ∧
        kind.kind? inner (kinds.map Prod.fst) = some name ∧ kinds.lookup name = some fields ∧
        rest.record? fields = some r := by
  simp only [variant?, Option.bind_eq_bind, Option.bind_eq_some_iff, Prod.exists]
  constructor
  · rintro ⟨kind, rest, htagged, name', hname, fields, hfields, r', hr, heq⟩
    cases heq
    exact ⟨kind, rest, fields, htagged, hname, hfields, hr⟩
  · rintro ⟨kind, rest, fields, htagged, hname, hfields, hr⟩
    exact ⟨kind, rest, htagged, name, hname, fields, hfields, r, hr, rfl⟩

theorem sizeOf_required?_array? {j : Json} {key : String} {items : List Json}
    (h : j.required? key array? = some items) :
    ∃ v, j.field? key = some v ∧ sizeOf items < sizeOf v := by
  obtain ⟨v, hv, hitems⟩ := Option.bind_eq_some_iff.mp h
  refine ⟨v, hv, ?_⟩
  cases v with
  | array values =>
    cases hitems
    simp only [Json.array.sizeOf_spec]
    omega
  | _ => cases hitems

-- So are the fields that belong to a kind.
theorem sizeOf_variant? {inner : Bool} {kinds : List (String × List String)} {j r v : Json}
    {name key : String} (hr : j.variant? inner kinds = some (name, r))
    (h : r.field? key = some v) : sizeOf v < sizeOf j := by
  obtain ⟨kind, rest, fields, htagged, -, -, hrecord⟩ := variant?_eq_some.mp hr
  exact Nat.lt_of_lt_of_le (sizeOf_record? hrecord h) (sizeOf_tagged? htagged)

end Json

end WikiQuery
