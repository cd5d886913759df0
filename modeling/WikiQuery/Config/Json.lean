import WikiQuery.Config.Reading
import WikiQuery.Json.Source
import WikiQuery.JsonForm.Value

namespace WikiQuery

namespace Reading

-- Settings in a JSON value, in which of a repeated key the last entry counts.
def json : Reading Json where
  text? := Json.text?
  depth? := Json.uint32?
  flag? := Json.bool?
  table? j := j.object?.map (·.entries)

-- Settings in a JSON text.
def jsonSource : Reading JsonSource where
  text?
    | .text s => s
    | _ => none
  depth?
    | .numeral n => n.integer? >>= depthOfInt?
    | _ => none
  flag?
    | .bool b => some b
    | _ => none
  table?
    | .object members => members.mapM fun (key, value) => key.map (·, value)
    | _ => none

end Reading

def Settings.toJson (s : Settings) : Json :=
  .object [("variable_prefix", .text s.stem), ("result_variable", .text s.result),
    ("sort_key_suffix", .text s.sortSuffix),
    ("category_hierarchy_depth", .ofNat s.categoryDepth.toNat),
    ("property_hierarchy_depth", .ofNat s.propertyDepth.toNat),
    ("warn_on_lenient_comparators", .bool s.warnOnIgnored)]

def Settings.ofJson? (j : Json) : Option Settings := Reading.json.settings? j

end WikiQuery
