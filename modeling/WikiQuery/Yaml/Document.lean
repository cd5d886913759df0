import WikiQuery.Yaml.Token

namespace WikiQuery.Yaml

-- Whether a node in a block collection is left out, as the next token shows.
def Token.endsBlockNode : Token → Bool
  | .key => true
  | .value => true
  | .blockEnd => true
  | _ => false

-- Whether a node within brackets is left out, as the next token shows.
def Token.endsFlowNode : Token → Bool
  | .comma => true
  | .flowSequenceEnd => true
  | .flowMappingEnd => true
  | _ => false

mutual
-- A node. `block` says whether it may be a block collection, and `level` whether it may be a
-- sequence whose dashes stand in the column of the keys around it. Each step down or along takes
-- one unit of fuel.
def readNode (block level : Bool) : Nat → List Token → Option (Yaml × List Token)
  | 0, _ => none
  | n + 1, tokens =>
    match tokens with
    | .scalar plain text :: rest => some (.scalar plain text, rest)
    | .flowSequence :: rest => do
      let (items, rest) ← readFlowItems n rest
      return (.sequence items, rest)
    | .flowMapping :: rest => do
      let (entries, rest) ← readFlowEntries n rest
      return (.mapping entries, rest)
    | .dash :: _ => do
      guard level
      let (items, rest) ← readLevelItems n tokens
      return (.sequence items, rest)
    | .blockSequence :: rest => do
      guard block
      let (items, rest) ← readItems n rest
      return (.sequence items, rest)
    | .blockMapping :: rest => do
      guard block
      let (entries, rest) ← readEntries n rest
      return (.mapping entries, rest)
    | _ => none

-- The items of a block sequence.
def readItems : Nat → List Token → Option (List Yaml × List Token)
  | 0, _ => none
  | n + 1, .dash :: tokens => do
    let (item, rest) ← match tokens with
      | .dash :: _ => some (absent, tokens)
      | .blockEnd :: _ => some (absent, tokens)
      | _ => readNode true false n tokens
    let (items, rest) ← readItems n rest
    return (item :: items, rest)
  | _, .blockEnd :: rest => some ([], rest)
  | _, _ => none

-- The items of a block sequence in the column of the keys around it, which ends where these go on.
def readLevelItems : Nat → List Token → Option (List Yaml × List Token)
  | 0, _ => none
  | n + 1, .dash :: tokens => do
    let (item, rest) ← match tokens with
      | .dash :: _ => some (absent, tokens)
      | t :: _ => if t.endsBlockNode then some (absent, tokens) else readNode true false n tokens
      | [] => none
    let (items, rest) ← readLevelItems n rest
    return (item :: items, rest)
  | _, tokens => some ([], tokens)

-- A key or a value of a block mapping; it may be left out.
def readPart : Nat → List Token → Option (Yaml × List Token)
  | 0, _ => none
  | _, [] => none
  | n + 1, t :: rest =>
    if t.endsBlockNode then some (absent, t :: rest) else readNode true true n (t :: rest)

-- The entries of a block mapping.
def readEntries : Nat → List Token → Option (List (Yaml × Yaml) × List Token)
  | 0, _ => none
  | n + 1, .key :: tokens => do
    let (key, rest) ← readPart n tokens
    let (value, rest) ← match rest with
      | .value :: rest => readPart n rest
      | rest => some (absent, rest)
    let (entries, rest) ← readEntries n rest
    return ((key, value) :: entries, rest)
  | _, .blockEnd :: rest => some ([], rest)
  | _, _ => none

-- The value of an entry within brackets, after its colon; it may be left out, also with the colon.
def readFlowValue : Nat → List Token → Option (Yaml × List Token)
  | 0, _ => none
  | n + 1, .value :: tokens =>
    if tokens.head?.any Token.endsFlowNode then some (absent, tokens)
    else readNode false false n tokens
  | _, tokens => some (absent, tokens)

-- An item of a sequence in brackets. With a key it is a mapping of one entry. Where a key is left
-- out, the token in its place is passed over.
def readFlowItem : Nat → List Token → Option (Yaml × List Token)
  | 0, _ => none
  | n + 1, .key :: tokens => do
    let (key, rest) ← match tokens with
      | .value :: rest => some (absent, rest)
      | .comma :: rest => some (absent, rest)
      | .flowSequenceEnd :: rest => some (absent, rest)
      | tokens => readNode false false n tokens
    let (value, rest) ← readFlowValue n rest
    return (.mapping [(key, value)], rest)
  | n + 1, tokens => readNode false false n tokens

-- The items of a sequence in brackets.
def readFlowItems : Nat → List Token → Option (List Yaml × List Token)
  | 0, _ => none
  | _, .flowSequenceEnd :: rest => some ([], rest)
  | n + 1, tokens => do
    let (item, rest) ← readFlowItem n tokens
    match rest with
    | .comma :: rest =>
      let (items, rest) ← readFlowItems n rest
      return (item :: items, rest)
    | .flowSequenceEnd :: rest => return ([item], rest)
    | _ => none

-- An entry of a mapping in braces. Without a colon it has only a key.
def readFlowEntry : Nat → List Token → Option ((Yaml × Yaml) × List Token)
  | 0, _ => none
  | n + 1, .key :: .value :: tokens => do
    let (value, rest) ← readFlowValue n (.value :: tokens)
    return ((absent, value), rest)
  | n + 1, .key :: tokens => do
    if tokens.head?.any Token.endsFlowNode then return ((absent, absent), tokens)
    let (key, rest) ← readNode false false n tokens
    let (value, rest) ← readFlowValue n rest
    return ((key, value), rest)
  | n + 1, tokens => do
    let (key, rest) ← readNode false false n tokens
    return ((key, absent), rest)

-- The entries of a mapping in braces.
def readFlowEntries : Nat → List Token → Option (List (Yaml × Yaml) × List Token)
  | 0, _ => none
  | _, .flowMappingEnd :: rest => some ([], rest)
  | n + 1, tokens => do
    let (entry, rest) ← readFlowEntry n tokens
    match rest with
    | .comma :: rest =>
      let (entries, rest) ← readFlowEntries n rest
      return (entry :: entries, rest)
    | .flowMappingEnd :: rest => return ([entry], rest)
    | _ => none
end

-- The only document of a text. A line of dashes may stand before it and lines of dots after it.
def readDocument (tokens : List Token) : Option Yaml := do
  let fuel := 4 * tokens.length + 4
  let (node, rest) ← match tokens with
    | [] => some (absent, [])
    | .documentStart :: tokens =>
      match tokens with
      | [] => some (absent, [])
      | .documentStart :: _ => some (absent, tokens)
      | .documentEnd :: _ => some (absent, tokens)
      | _ => readNode true false fuel tokens
    | tokens => readNode true false fuel tokens
  guard (rest.all fun t => match t with
    | .documentEnd => true
    | _ => false)
  return node

-- Reads a text that holds one document.
def read (cs : List Char) : Option Yaml := do
  guard (cs.all isAllowed)
  readDocument (← Token.scan (spots 0 0 0 (plainLineEnds cs)))

end WikiQuery.Yaml
