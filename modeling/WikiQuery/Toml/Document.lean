import WikiQuery.Toml.Scalar

namespace WikiQuery.Toml

-- What follows a comment, if one stands here; a comment goes to the end of its line.
def skipComment (cs : List Char) : Option (List Char) :=
  match cs with
  | '#' :: rest =>
    let body := rest.takeWhile fun c => c ≠ '\n' && c ≠ '\r'
    if body.any isControl then none else some (rest.drop body.length)
  | cs => some cs

-- Passes over blanks, comments and line ends.
def skipLines : Nat → List Char → Option (List Char)
  | 0, _ => none
  | n + 1, cs =>
    let cs := skipSpace cs
    match afterLine? cs with
    | some rest => skipLines n rest
    | none =>
      match cs with
      | '#' :: rest => skipComment ('#' :: rest) >>= skipLines n
      | cs => some cs

def isKeyChar (c : Char) : Bool := c.isAlphanum || c = '_' || c = '-'

-- One part of a key: a bare word, or a text in quotes.
def readKeyPart (cs : List Char) : Option (String × List Char) :=
  match cs with
  | '"' :: rest => readShortText '"' false rest
  | '\x27' :: rest => readShortText '\x27' true rest
  | cs =>
    let word := cs.takeWhile isKeyChar
    if word.isEmpty then none else some (String.ofList word, cs.drop word.length)

-- Parts of a key with dots between them, around which blanks may stand.
def readKeyParts : Nat → List Char → Option (List String × List Char)
  | 0, _ => none
  | n + 1, cs => do
    let (part, rest) ← readKeyPart (skipSpace cs)
    match skipSpace rest with
    | '.' :: rest =>
      let (parts, rest) ← readKeyParts n rest
      return (part :: parts, rest)
    | rest => return ([part], rest)

-- How deep arrays, inline tables and keys may go.
def maxDepth : Nat := 80

-- A key, which has no more parts than it may have.
def readKey (cs : List Char) : Option (List String × List Char) := do
  let (parts, rest) ← readKeyParts (cs.length + 1) cs
  guard (parts.length ≤ maxDepth)
  return (parts, rest)

-- Adds an entry to a table that grows by dotted keys.
def addEntry (key : List String) (v : Toml) (entries : List (String × TomlNode)) :
    Option (List (String × TomlNode)) := do
  TomlNode.insert (← key.getLast?) v true key.dropLast entries

mutual
-- A value at the start of a text, in which brackets may be nested to a depth. Each step down or
-- along takes one unit of fuel.
def readValue (depth : Nat) : Nat → List Char → Option (Toml × List Char)
  | 0, _ => none
  | n + 1, cs =>
    match cs with
    | '"' :: rest => (readText '"' false rest).map fun (s, rest) => (.text s, rest)
    | '\x27' :: rest => (readText '\x27' true rest).map fun (s, rest) => (.text s, rest)
    | '[' :: rest => do
      guard (0 < depth)
      let (items, rest) ← readItems (depth - 1) n rest
      return (.array items, rest)
    | '\x7b' :: rest => do
      guard (0 < depth)
      let (entries, rest) ← readEntries (depth - 1) n [] rest
      return (.table (TomlNode.finishEntries entries), rest)
    | cs => readWord cs

-- The items of an array up to its closing bracket. A comma may follow the last one.
def readItems (depth : Nat) : Nat → List Char → Option (List Toml × List Char)
  | 0, _ => none
  | n + 1, cs => do
    let cs ← skipLines (cs.length + 1) cs
    match cs with
    | ']' :: rest => return ([], rest)
    | cs =>
      let (v, rest) ← readValue depth n cs
      let rest ← skipLines (rest.length + 1) rest
      match rest with
      | ',' :: rest =>
        let (vs, rest) ← readItems depth n rest
        return (v :: vs, rest)
      | ']' :: rest => return ([v], rest)
      | _ => none

-- The entries of an inline table up to its closing brace. Lines may end anywhere but in a key.
def readEntries (depth : Nat) : Nat → List (String × TomlNode) → List Char →
    Option (List (String × TomlNode) × List Char)
  | 0, _, _ => none
  | n + 1, entries, cs => do
    let cs ← skipLines (cs.length + 1) cs
    match cs with
    | '\x7d' :: rest => return (entries, rest)
    | cs =>
      let (key, rest) ← readKey cs
      let rest ← skipLines (rest.length + 1) rest
      match rest with
      | '=' :: rest =>
        let rest ← skipLines (rest.length + 1) rest
        let (v, rest) ← readValue depth n rest
        let entries ← addEntry key v entries
        let rest ← skipLines (rest.length + 1) rest
        match rest with
        | ',' :: rest => readEntries depth n entries rest
        | '\x7d' :: rest => return (entries, rest)
        | _ => none
      | _ => none
end

-- What a line of a document says.
inductive Statement where
  | entry (key : List String) (value : Toml)
  | header (path : List String)
  | nextTable (path : List String)

-- One statement, and what follows it on its line.
def readStatement (cs : List Char) : Option (Statement × List Char) := do
  match cs with
  | '[' :: '[' :: rest =>
    let (path, rest) ← readKey rest
    match rest with
    | ']' :: ']' :: rest => return (.nextTable path, rest)
    | _ => none
  | '[' :: rest =>
    let (path, rest) ← readKey rest
    match rest with
    | ']' :: rest => return (.header path, rest)
    | _ => none
  | cs =>
    let (key, rest) ← readKey cs
    match rest with
    | '=' :: rest =>
      let (v, rest) ← readValue maxDepth (2 * rest.length + 2) (skipSpace rest)
      return (.entry key v, rest)
    | _ => none

-- The statements of a document, one to a line.
def readStatements : Nat → List Char → Option (List Statement)
  | 0, _ => none
  | n + 1, cs => do
    let cs ← skipLines (cs.length + 1) cs
    if cs.isEmpty then return []
    let (statement, rest) ← readStatement cs
    let rest ← skipComment (skipSpace rest)
    if rest.isEmpty then return [statement]
    return statement :: (← readStatements n (← afterLine? rest))

-- A document that is being read: its tables, and the one to which entries are added.
structure Draft where
  root : List (String × TomlNode) := []
  current : List String := []

def Draft.add (d : Draft) : Statement → Option Draft
  | .entry key v => do
    return { d with root := ← TomlNode.update (addEntry key v) d.current d.root }
  | .header path => do
    let key ← path.getLast?
    return ⟨← TomlNode.update (TomlNode.openTable key) path.dropLast d.root, path⟩
  | .nextTable path => do
    let key ← path.getLast?
    return ⟨← TomlNode.update (TomlNode.openNext key) path.dropLast d.root, path⟩

-- Reads a document; a byte order mark may stand before it.
def read (cs : List Char) : Option Toml := do
  let cs := if cs.head? = some '\ufeff' then cs.drop 1 else cs
  let statements ← readStatements (cs.length + 1) cs
  let draft ← statements.foldlM Draft.add {}
  return .table (TomlNode.finishEntries draft.root)

end WikiQuery.Toml
