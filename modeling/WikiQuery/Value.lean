import WikiQuery.Number.Layout
import WikiQuery.Resource
import WikiQuery.Text.Basic

namespace WikiQuery

-- What kind of values a property has.
inductive Datatype where
  | page
  | text
  | number
  | boolean
deriving DecidableEq

namespace Datatype

def all : List Datatype := [page, text, number, boolean]

def name : Datatype → String
  | page => "page"
  | text => "text"
  | number => "number"
  | boolean => "boolean"

-- The name as a title, as events spell it.
def title : Datatype → String
  | page => "Page"
  | text => "Text"
  | number => "Number"
  | boolean => "Boolean"

def ofName? (s : String) : Option Datatype := all.find? (·.name = s)

-- Values that are pages are entities of their own; all others are stored with their subject.
def isPage : Datatype → Bool
  | page => true
  | _ => false

end Datatype

-- A value that a query compares with.
inductive Value where
  | page (resource : Resource)
  | text (s : String)
  | number (x : Number)
  | boolean (b : Bool)

namespace Value

def datatype : Value → Datatype
  | page _ => .page
  | text _ => .text
  | number _ => .number
  | boolean _ => .boolean

def resource? : Value → Option Resource
  | page r => some r
  | _ => none

def shown : Value → String
  | page r => r.shown
  | text s => Text.quoted s
  | number x => x.shown
  | boolean b => if b then "true" else "false"

-- Equality of values, in which numbers are compared as numbers.
def same : Value → Value → Bool
  | page r, page t => r = t
  | text s, text t => s = t
  | number x, number y => x.same y
  | boolean a, boolean b => a = b
  | _, _ => false

end Value

-- How a query compares an entity with a value.
inductive Comparator where
  | eq
  | less
  | greater
  | leq
  | geq
  | neq
  | like
  | notLike
  | unknown
deriving DecidableEq

namespace Comparator

def all : List Comparator := [eq, less, greater, leq, geq, neq, like, notLike, unknown]

def name : Comparator → String
  | eq => "EQ"
  | less => "LESS"
  | greater => "GREATER"
  | leq => "LEQ"
  | geq => "GEQ"
  | neq => "NEQ"
  | like => "LIKE"
  | notLike => "NOT_LIKE"
  | unknown => "UNKNOWN"

-- The name as a title, as events spell it.
def title : Comparator → String
  | eq => "Eq"
  | less => "Less"
  | greater => "Greater"
  | leq => "Leq"
  | geq => "Geq"
  | neq => "Neq"
  | like => "Like"
  | notLike => "NotLike"
  | unknown => "Unknown"

def ofName? (s : String) : Option Comparator := all.find? (·.name = s)

end Comparator

end WikiQuery
