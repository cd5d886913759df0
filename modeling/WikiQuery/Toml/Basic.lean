namespace WikiQuery

-- A value of a TOML document. Of floating-point numbers and dates only the presence is kept.
inductive Toml where
  | text (s : String)
  | integer (i : Int)
  | boolean (b : Bool)
  | other
  | array (items : List Toml)
  | table (entries : List (String × Toml))

-- How a table came to be, which decides what may still be added to it: it was passed through on
-- the way to another one, named by a dotted key, or opened by a header.
inductive TomlOrigin where
  | passed
  | dotted
  | opened
deriving DecidableEq

-- A part of a document that is being read: a finished value, a table, or an array of tables, of
-- which the last one is still growing.
inductive TomlNode where
  | value (v : Toml)
  | table (origin : TomlOrigin) (entries : List (String × TomlNode))
  | tables (items : List (List (String × TomlNode)))

namespace TomlNode

-- Puts a node in the place of the one under a key.
def replace (key : String) (node : TomlNode) (entries : List (String × TomlNode)) :
    List (String × TomlNode) :=
  entries.map fun (k, n) => (k, if k = key then node else n)

-- Adds a value under a dotted key. `extensible` says whether the table at hand takes new keys:
-- where the key starts, and in tables that dotted keys made. Tables that were opened by a header
-- are not entered, and an array of tables leads to its last one.
def insert (key : String) (v : Toml) :
    Bool → List String → List (String × TomlNode) → Option (List (String × TomlNode))
  | extensible, [], entries =>
    if !extensible || (entries.lookup key).isSome then none
    else some (entries ++ [(key, .value v)])
  | _, k :: path, entries =>
    match entries.lookup k with
    | none => do return entries ++ [(k, .table .dotted (← insert key v true path []))]
    | some (.table .opened _) => none
    | some (.table origin inner) => do
      return replace k (.table origin (← insert key v (origin = .dotted) path inner)) entries
    | some (.tables items) => do
      let last ← items.getLast?
      return replace k (.tables (items.dropLast ++ [← insert key v false path last])) entries
    | some (.value _) => none

-- Changes the table at the end of a path of headers. An array of tables leads to its last one.
def update (change : List (String × TomlNode) → Option (List (String × TomlNode))) :
    List String → List (String × TomlNode) → Option (List (String × TomlNode))
  | [], entries => change entries
  | k :: path, entries =>
    match entries.lookup k with
    | none => do return entries ++ [(k, .table .passed (← update change path []))]
    | some (.table origin inner) =>
      do return replace k (.table origin (← update change path inner)) entries
    | some (.tables items) => do
      let last ← items.getLast?
      return replace k (.tables (items.dropLast ++ [← update change path last])) entries
    | some (.value _) => none

-- Opens a table by a header. A table is opened once, and not after a dotted key made it.
def openTable (key : String) (entries : List (String × TomlNode)) :
    Option (List (String × TomlNode)) :=
  match entries.lookup key with
  | none => some (entries ++ [(key, .table .opened [])])
  | some (.table .passed inner) => some (replace key (.table .opened inner) entries)
  | some _ => none

-- Opens the next table of an array of tables.
def openNext (key : String) (entries : List (String × TomlNode)) :
    Option (List (String × TomlNode)) :=
  match entries.lookup key with
  | none => some (entries ++ [(key, .tables [[]])])
  | some (.tables items) => some (replace key (.tables (items ++ [[]])) entries)
  | some _ => none

mutual
def finish : TomlNode → Toml
  | .value v => v
  | .table _ entries => .table (finishEntries entries)
  | .tables items => .array (finishItems items)

def finishEntries : List (String × TomlNode) → List (String × Toml)
  | [] => []
  | (k, n) :: rest => (k, finish n) :: finishEntries rest

def finishItems : List (List (String × TomlNode)) → List Toml
  | [] => []
  | entries :: rest => .table (finishEntries entries) :: finishItems rest
end

end TomlNode

end WikiQuery
