import WikiQuery.Text.Basic

namespace WikiQuery

-- A wiki page: its title as it was written and the number of its namespace.
structure Page where
  title : String
  space : Int32
deriving DecidableEq

namespace Page

-- The title as it is stored.
def key (p : Page) : String := Text.addressed p.title

-- Pages of the main namespace, number zero, are shown without the number.
def shown (p : Page) : String :=
  if p.space = 0 then "wiki:" ++ p.key
  else "wiki:" ++ Text.signed p.space.toInt ++ ":" ++ p.key

end Page

-- An external vocabulary: a short label for a base address.
structure Vocabulary where
  label : String
  uri : String
deriving DecidableEq

-- Something a variable can be bound to: a page of the wiki, or a name in an external vocabulary.
inductive Resource where
  | page (page : Page)
  | external (vocabulary : Vocabulary) (name : String)
deriving DecidableEq

namespace Resource

-- The identity of a resource: bindings to two resources agree when their identities do.
def identity : Resource → String
  | .page p => p.shown
  | .external v name => v.uri ++ name

-- What a resource is ordered by among others of its kind.
def sortKey : Resource → String
  | .page p => p.title
  | .external _ name => name

def vocabulary? : Resource → Option Vocabulary
  | .page _ => none
  | .external v _ => some v

def shown : Resource → String
  | .page p => p.shown
  | .external v name => v.label ++ ":" ++ name

end Resource

-- A property as a query names it. An inverse property leads from the value to the subject, and an
-- imported one belongs to an external vocabulary.
structure Property where
  key : String
  inverse : Bool := false
  vocabulary : Option Vocabulary := none
deriving DecidableEq

namespace Property

def inverted (p : Property) : Property := { p with inverse := !p.inverse }

def importedFrom (p : Property) (v : Vocabulary) : Property := { p with vocabulary := some v }

def shown (p : Property) : String :=
  let label := match p.vocabulary with
    | some v => v.label
    | none => "property"
  label ++ ":" ++ Text.underscored p.key

end Property

-- A variable of a graph pattern.
structure Variable where
  name : String
deriving DecidableEq

namespace Variable

def shown (v : Variable) : String := "?" ++ v.name

def withSuffix (v : Variable) (suffix : String) : Variable := ⟨v.name ++ suffix⟩

end Variable

end WikiQuery
