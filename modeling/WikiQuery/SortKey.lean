import WikiQuery.KeyMap
import WikiQuery.Value

namespace WikiQuery

inductive Direction where
  | asc
  | desc
  | random
deriving DecidableEq

namespace Direction

def all : List Direction := [asc, desc, random]

def name : Direction → String
  | asc => "asc"
  | desc => "desc"
  | random => "random"

def ofName? (s : String) : Option Direction := all.find? (·.name = s)

end Direction

-- A sort that the caller asks for: by the values of a property, or, under the empty key, by the
-- results themselves.
structure RequestedSort where
  key : String
  direction : Direction := .asc
deriving DecidableEq

-- The sort keys of a query with their directions.
abbrev SortKeys := KeyMap Direction

namespace SortKeys

-- The key of the results themselves.
def mainSubject : String := ""

-- A key that is requested twice keeps its first direction.
def ofRequests (sorts : List RequestedSort) : SortKeys :=
  sorts.foldl (fun keys sort => keys.insertNew sort.key sort.direction) ∅

end SortKeys

-- The sort key to which the values of a variable contribute, and what kind of values they are.
structure SortTarget where
  key : String
  datatype : Datatype
deriving DecidableEq

namespace SortTarget

-- The results themselves, which are pages.
def mainSubject : SortTarget := ⟨SortKeys.mainSubject, .page⟩

end SortTarget

end WikiQuery
