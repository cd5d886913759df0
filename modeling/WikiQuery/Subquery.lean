import WikiQuery.Resource

namespace WikiQuery

-- A closure that is computed apart from the pattern which refers to it: the members of categories
-- or the values of a property, with all that lie below them down to a depth.
inductive Subquery where
  | categories (ids : List Nat) (depth : UInt32)
  | property (property : Property) (id : Nat) (depth : UInt32)
deriving DecidableEq

-- A reference to a sub-query by its place in the table.
structure SubqueryId where
  index : Nat
deriving DecidableEq

namespace SubqueryId

def shown (id : SubqueryId) : String := "#" ++ Text.decimal id.index

end SubqueryId

-- The sub-queries of a query in the order in which they were registered.
structure SubqueryTable where
  entries : List Subquery := []
deriving DecidableEq

namespace SubqueryTable

def size (t : SubqueryTable) : Nat := t.entries.length

def isEmpty (t : SubqueryTable) : Bool := t.entries.isEmpty

def get? (t : SubqueryTable) (id : SubqueryId) : Option Subquery := t.entries[id.index]?

-- Registers a sub-query at the end, unless it has a place already.
def register (t : SubqueryTable) (q : Subquery) : SubqueryId × SubqueryTable :=
  match t.entries.idxOf? q with
  | some i => (⟨i⟩, t)
  | none => (⟨t.size⟩, ⟨t.entries ++ [q]⟩)

-- Keeps the first entries only.
def truncate (t : SubqueryTable) (size : Nat) : SubqueryTable := ⟨t.entries.take size⟩

-- The places in use.
def ids (t : SubqueryTable) : List SubqueryId := (List.range t.size).map (⟨·⟩)

end SubqueryTable

end WikiQuery
