import WikiQuery.Yaml.Scalar

namespace WikiQuery.Yaml

-- What a document is made of. Where block collections start and end is told by the indentation, and
-- that a node is a key by the colon after it.
inductive Token where
  | documentStart
  | documentEnd
  | blockSequence
  | blockMapping
  | blockEnd
  | flowSequence
  | flowSequenceEnd
  | flowMapping
  | flowMappingEnd
  | comma
  | dash
  | key
  | value
  | scalar (plain : Bool) (text : String)

-- A node that is a key if a colon follows: where it starts, how many tokens stand before it, and
-- whether it can only be a key, as in the column of the block collection around it.
structure Candidate where
  spot : Spot
  before : Nat
  needed : Bool

-- A colon makes a node a key only on the line where the node starts, and within 1024 bytes.
def Candidate.reaches (c : Candidate) (s : Spot) : Bool :=
  c.spot.line = s.line && s.offset ≤ c.spot.offset + 1024

-- What is known in the course of reading: the tokens so far, the last one first; the columns of the
-- block collections that are open, the innermost first; the candidates for keys, at this place and
-- outside of each bracket that is open; and whether a block collection or a key may start.
structure Scan where
  tokens : List Token := []
  columns : List Nat := []
  candidate : Option Candidate := none
  outer : List (Option Candidate) := []
  fresh : Bool := true

namespace Scan

-- Whether a bracket is open.
def flow (s : Scan) : Bool := !s.outer.isEmpty

-- The least column of what lies within the innermost block collection.
def floor (s : Scan) : Nat :=
  match s.columns with
  | [] => 0
  | col :: _ => col + 1

def push (s : Scan) (t : Token) : Scan := { s with tokens := t :: s.tokens }

-- Gives up the candidate at this place.
def forget? (s : Scan) : Option Scan :=
  if s.candidate.any (·.needed) then none else some { s with candidate := none }

-- A candidate that is out of reach is none.
def reached? (here : Spot) : Option Candidate → Option (Option Candidate)
  | none => some none
  | some c =>
    if c.reaches here then some (some c)
    else if c.needed then none
    else some none

-- Gives up all candidates that are out of reach.
def arrive? (s : Scan) (here : Spot) : Option Scan := do
  return { s with
    candidate := ← reached? here s.candidate
    outer := ← s.outer.mapM (reached? here) }

-- Makes what starts here the candidate, if it may be a key.
def propose? (s : Scan) (here : Spot) : Option Scan := do
  if !s.fresh then return s
  let s ← s.forget?
  return { s with
    candidate := some ⟨here, s.tokens.length, !s.flow && s.columns.head? = some here.col⟩ }

-- Closes the block collections in columns after a given one.
def closeTo (col : Nat) : List Nat → List Token → List Nat × List Token
  | [], tokens => ([], tokens)
  | c :: rest, tokens =>
    if col < c then closeTo col rest (.blockEnd :: tokens) else (c :: rest, tokens)

def dedent (s : Scan) (col : Nat) : Scan :=
  if s.flow then s
  else
    let (columns, tokens) := closeTo col s.columns s.tokens
    { s with columns, tokens }

-- Closes all block collections.
def closeAll (s : Scan) : Scan :=
  if s.flow then s
  else { s with columns := [], tokens := s.columns.map (fun _ => .blockEnd) ++ s.tokens }

-- Puts a token after a number of the tokens so far.
def insert (s : Scan) (before : Nat) (t : Token) : Scan :=
  let later := s.tokens.length - before
  { s with tokens := s.tokens.take later ++ t :: s.tokens.drop later }

-- Opens a block collection after a number of tokens, unless one is open in this column.
def indent (s : Scan) (col before : Nat) (t : Token) : Scan :=
  if s.flow || s.columns.head?.any (col ≤ ·) then s
  else { s.insert before t with columns := col :: s.columns }

-- The sign of an item or a key, which may stand only where a block collection may start, or within
-- brackets.
def addSign? (s : Scan) (here : Spot) (collection sign : Token) : Option Scan := do
  guard (s.flow || s.fresh)
  let s ← (s.indent here.col s.tokens.length collection).forget?
  return s.push sign

-- The colon before a value. It makes the candidate a key.
def addValue? (s : Scan) (here : Spot) : Option Scan :=
  match s.candidate with
  | some c =>
    let s := (s.insert c.before .key).indent c.spot.col c.before .blockMapping
    some ({ s with candidate := none, fresh := false }.push .value)
  | none =>
    if s.flow then some ({ s with fresh := false }.push .value)
    else if s.fresh then some ((s.indent here.col s.tokens.length .blockMapping).push .value)
    else none

def openBracket? (s : Scan) (here : Spot) (t : Token) : Option Scan := do
  let s ← s.propose? here
  return { s with outer := s.candidate :: s.outer, candidate := none, fresh := true }.push t

def closeBracket? (s : Scan) (t : Token) : Option Scan := do
  let s ← s.forget?
  let s := match s.outer with
    | [] => s
    | c :: outer => { s with candidate := c, outer }
  return { s with fresh := false }.push t

def addMarker? (s : Scan) (t : Token) : Option Scan := do
  let s ← s.closeAll.forget?
  return { s with fresh := false }.push t

-- The token at the start of a text, and what follows it.
def next? (s : Scan) (here : Spot) (rest : List Spot) : Option (Scan × List Spot) := do
  let text := here :: rest
  let c := here.char
  if isMarker '-' text then return (← s.addMarker? .documentStart, rest.drop 2)
  else if isMarker '.' text then return (← s.addMarker? .documentEnd, rest.drop 2)
  else if c = '[' then return (← s.openBracket? here .flowSequence, rest)
  else if c = '\x7b' then return (← s.openBracket? here .flowMapping, rest)
  else if c = ']' then return (← s.closeBracket? .flowSequenceEnd, rest)
  else if c = '\x7d' then return (← s.closeBracket? .flowMappingEnd, rest)
  else if c = ',' then return ({ ← s.forget? with fresh := true }.push .comma, rest)
  else if isSign '-' text then
    return ({ ← s.addSign? here .blockSequence .dash with fresh := true }, rest)
  else if c = '?' && (s.flow || isBlankAt rest) then
    return ({ ← s.addSign? here .blockMapping .key with fresh := !s.flow }, rest)
  else if c = ':' && (s.flow || isBlankAt rest) then return (← s.addValue? here, rest)
  else if c = '"' || c = '\x27' then
    let (content, rest) ← readQuoted c rest
    return ({ ← s.propose? here with fresh := false }.push (.scalar false content), rest)
  else if startsPlain s.flow text then
    let (content, ended, rest) ← readPlain s.flow s.floor (text.length + 1) text
    return ({ ← s.propose? here with fresh := ended }.push (.scalar true (String.ofList content)),
      rest)
  else none

-- Reads on to the end of the text. Each token takes one unit of fuel.
def run : Nat → Scan → List Spot → Option (List Token)
  | 0, _, _ => none
  | n + 1, s, text =>
    match skip s.flow s.fresh text with
    | (_, []) => do return (← s.closeAll.forget?).tokens.reverse
    | (fresh, here :: rest) => do
      let s ← { s with fresh }.arrive? here
      let (s, rest) ← (s.dedent here.col).next? here rest
      run n s rest

end Scan

-- The tokens of a text.
def Token.scan (text : List Spot) : Option (List Token) := Scan.run (text.length + 1) {} text

end WikiQuery.Yaml
