import WikiQuery.Config.Basic

namespace WikiQuery

-- How the documents of a format present what settings are made of.
structure Reading (α : Type) where
  text? : α → Option String
  depth? : α → Option UInt32
  flag? : α → Option Bool
  table? : α → Option (List (String × α))

namespace Reading

variable {α β : Type}

-- The entry of a table under a key, read by `read`; `fallback` if there is none. A key that is
-- given twice is refused.
def entryOr (entries : List (String × α)) (key : String) (fallback : β) (read : α → Option β) :
    Option β :=
  match entries.filter (·.1 = key) with
  | [] => some fallback
  | [(_, value)] => read value
  | _ => none

-- Settings from a table. What is not given has its default, and other entries are passed over.
def settings? (r : Reading α) (document : α) : Option Settings := do
  let entries ← r.table? document
  let base : Settings := {}
  return {
    stem := ← entryOr entries "variable_prefix" base.stem r.text?
    result := ← entryOr entries "result_variable" base.result r.text?
    sortSuffix := ← entryOr entries "sort_key_suffix" base.sortSuffix r.text?
    categoryDepth := ← entryOr entries "category_hierarchy_depth" base.categoryDepth r.depth?
    propertyDepth := ← entryOr entries "property_hierarchy_depth" base.propertyDepth r.depth?
    warnOnIgnored := ← entryOr entries "warn_on_lenient_comparators" base.warnOnIgnored r.flag? }

-- A whole configuration: a table in which the compiler has a section.
def configuration? (r : Reading α) (document : α) : Option Settings := do
  let entries ← r.table? document
  entryOr entries "compiler" {} r.settings?

end Reading

-- A number that can be a depth.
def depthOfInt? (i : Int) : Option UInt32 :=
  if 0 ≤ i ∧ i < 0x100000000 then some (UInt32.ofNat i.toNat) else none

end WikiQuery
