import WikiQuery.Text.Basic
import WikiQuery.Yaml.Basic

namespace WikiQuery.Yaml

-- What the line ends between two lines of a scalar leave: a single plain one becomes a space, and
-- of several the first is dropped if it is a plain one.
def folded (breaks : List Char) : List Char :=
  match breaks with
  | ['\n'] => [' ']
  | '\n' :: more => more
  | breaks => breaks

-- A colon within brackets with one of their signs after it.
def isCrowded : List Spot → Bool
  | s :: t :: _ => s.char = ':' && (isFlowSign t.char || t.char = '?')
  | _ => false

-- The part of a plain scalar on one line, up to a comment, a colon before a blank, or, within
-- brackets, a sign of the brackets. `blank` says whether a blank stands before.
def plainLine (flow blank : Bool) : List Spot → List Char × List Spot
  | [] => ([], [])
  | s :: rest =>
    let stop :=
      isBreak s.char || (s.char = '#' && blank) || isSign ':' (s :: rest) ||
      (flow && (isFlowSign s.char || isCrowded (s :: rest)))
    if stop then ([], s :: rest)
    else
      let (cs, rest) := plainLine flow (isBlank s.char) rest
      (s.char :: cs, rest)

def trimEnd (cs : List Char) : List Char := (cs.reverse.dropWhile isBlank).reverse

-- Passes over blanks and line ends, and gives the line ends. Once a line has ended, a tab may not
-- stand before the column `floor`.
def gap? (floor : Nat) (ended : Bool) : List Spot → Option (List Char × List Spot)
  | [] => some ([], [])
  | s :: rest =>
    if isBreak s.char then
      (gap? floor true rest).map fun (breaks, rest) => (s.char :: breaks, rest)
    else if s.char = '\t' && ended && s.col < floor then none
    else if isBlank s.char then gap? floor ended rest
    else some ([], s :: rest)

-- A plain scalar, and whether a line ended after it. It goes on over the following lines as long as
-- they are indented at least to `floor`, or within brackets, and do not start with what ends it.
def readPlain (flow : Bool) (floor : Nat) :
    Nat → List Spot → Option (List Char × Bool × List Spot)
  | 0, _ => none
  | n + 1, s => do
    let (line, rest) := plainLine flow false s
    guard !(flow && isCrowded rest)
    let (breaks, rest) ← gap? floor false rest
    let stops := breaks.isEmpty || isEnd rest || startsWith '#' rest ||
      (!flow && rest.head?.any fun t => t.col < floor) ||
      ((plainLine flow false rest).1.isEmpty && !(flow && isCrowded rest))
    if stops then return (trimEnd line, !breaks.isEmpty, rest)
    let (more, ended, rest) ← readPlain flow floor n rest
    return (trimEnd line ++ folded breaks ++ more, ended, rest)

-- Whether a plain scalar can start here.
def startsPlain (flow : Bool) : List Spot → Bool
  | [] => false
  | s :: rest =>
    let c := s.char
    if c = '-' then !isBlankAt rest
    else if c = '?' ∨ c = ':' then !flow && !isBlankAt rest
    else !isBlank c && !isBreak c && !isFlowSign c &&
      c ∉ ['#', '&', '*', '!', '|', '>', '\x27', '"', '%', '@', '\x60']

-- The text in single quotes, in which a quote is written twice. Line ends within it are folded.
def readSingle : Nat → List Spot → Option (List Char × List Spot)
  | 0, _ => none
  | _, [] => none
  | n + 1, s :: rest =>
    if isMarker '-' (s :: rest) || isMarker '.' (s :: rest) then none
    else if s.char = '\x27' then
      match rest with
      | t :: rest' =>
        if t.char = '\x27' then (readSingle n rest').map fun (cs, rest) => ('\x27' :: cs, rest)
        else some ([], t :: rest')
      | [] => some ([], [])
    else do
      let (breaks, next) ← gap? 0 false (s :: rest)
      if !breaks.isEmpty then (readSingle n next).map fun (cs, rest) => (folded breaks ++ cs, rest)
      else (readSingle n rest).map fun (cs, rest) => (s.char :: cs, rest)

def shortEscape? : Char → Option Char
  | '0' => some '\x00'
  | 'a' => some '\x07'
  | 'b' => some '\x08'
  | 't' => some '\t'
  | '\t' => some '\t'
  | 'n' => some '\n'
  | 'v' => some '\x0b'
  | 'f' => some '\x0c'
  | 'r' => some '\r'
  | 'e' => some '\x1b'
  | ' ' => some ' '
  | '"' => some '"'
  | '/' => some '/'
  | '\\' => some '\\'
  | 'N' => some '\u0085'
  | '_' => some '\u00a0'
  | 'L' => some '\u2028'
  | 'P' => some '\u2029'
  | _ => none

-- The text in double quotes, with escapes. A backslash at the end of a line joins it to the next.
def readDouble : Nat → List Spot → Option (List Char × List Spot)
  | 0, _ => none
  | _, [] => none
  | n + 1, s :: rest =>
    if isMarker '-' (s :: rest) || isMarker '.' (s :: rest) then none
    else if s.char = '"' then some ([], rest)
    else if s.char = '\\' then
      match rest with
      | [] => none
      | t :: rest =>
        if isBreak t.char then do
          let (breaks, next) ← gap? 0 true rest
          (readDouble n next).map fun (cs, rest) => (breaks ++ cs, rest)
        else match Text.hexEscapeLength? t.char with
          | some length => do
            let c ← Text.hexEscape? length ((rest.take length).map (·.char))
            let (cs, rest) ← readDouble n (rest.drop length)
            return (c :: cs, rest)
          | none => do
            let c ← shortEscape? t.char
            let (cs, rest) ← readDouble n rest
            return (c :: cs, rest)
    else do
      let (breaks, next) ← gap? 0 false (s :: rest)
      if !breaks.isEmpty then (readDouble n next).map fun (cs, rest) => (folded breaks ++ cs, rest)
      else (readDouble n rest).map fun (cs, rest) => (s.char :: cs, rest)

-- The text of a scalar in quotes.
def readQuoted (quote : Char) (rest : List Spot) : Option (String × List Spot) :=
  let fuel := rest.length + 1
  (if quote = '"' then readDouble fuel rest else readSingle fuel rest).map fun (cs, rest) =>
    (String.ofList cs, rest)

end WikiQuery.Yaml
