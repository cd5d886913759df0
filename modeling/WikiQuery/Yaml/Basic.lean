namespace WikiQuery

-- A node of a YAML document. Of a scalar it is kept whether it stood without quotes, for only then
-- can it be a number or a truth value.
inductive Yaml where
  | scalar (plain : Bool) (text : String)
  | sequence (items : List Yaml)
  | mapping (entries : List (Yaml × Yaml))

namespace Yaml

-- The node where nothing is written.
def absent : Yaml := .scalar true ""

-- The characters that a document may hold.
def isAllowed (c : Char) : Bool :=
  let n := c.toNat
  n = 0x09 || n = 0x0A || n = 0x0D || (0x20 ≤ n && n ≤ 0x7E) || n = 0x85 ||
    (0xA0 ≤ n && n ≤ 0xFFFD) || 0x10000 ≤ n

-- A line may end in several ways, most of which mean the same.
def plainLineEnds : List Char → List Char
  | [] => []
  | '\r' :: '\n' :: rest => '\n' :: plainLineEnds rest
  | '\r' :: rest => '\n' :: plainLineEnds rest
  | '\u0085' :: rest => '\n' :: plainLineEnds rest
  | c :: rest => c :: plainLineEnds rest

-- The line ends that are left: the plain one, the line separator and the paragraph separator.
def isBreak (c : Char) : Bool := c = '\n' || c = '\u2028' || c = '\u2029'

def isBlank (c : Char) : Bool := c = ' ' || c = '\t'

-- A character of a document with its place: the line, the characters before it on its line, and
-- the bytes that these take up.
structure Spot where
  char : Char
  line : Nat
  col : Nat
  offset : Nat

-- The places of the characters of a text.
def spots : Nat → Nat → Nat → List Char → List Spot
  | _, _, _, [] => []
  | line, col, offset, c :: rest =>
    ⟨c, line, col, offset⟩ ::
      if isBreak c then spots (line + 1) 0 0 rest
      else spots line (col + 1) (offset + c.utf8Size) rest

-- Blanks, line ends, and the end of the document.
def isBlankAt (s : List Spot) : Bool :=
  match s with
  | [] => true
  | c :: _ => isBlank c.char || isBreak c.char

def isFlowSign (c : Char) : Bool :=
  c = ',' || c = '[' || c = ']' || c = '\x7b' || c = '\x7d'

-- Whether the text goes on with a given character.
def startsWith (c : Char) : List Spot → Bool
  | [] => false
  | s :: _ => s.char = c

-- A sign that has to be followed by a blank.
def isSign (c : Char) : List Spot → Bool
  | [] => false
  | s :: rest => s.char = c && isBlankAt rest

-- Three dashes or three dots at the start of a line, which set documents apart.
def isMarker (c : Char) : List Spot → Bool
  | a :: b :: d :: rest =>
    a.col = 0 && a.char = c && b.char = c && d.char = c && isBlankAt rest
  | _ => false

-- Nothing more belongs to the document.
def isEnd (s : List Spot) : Bool := s.isEmpty || isMarker '-' s || isMarker '.' s

mutual
-- Passes over blanks, comments, line ends, and byte order marks at the start of a line. `fresh`
-- says whether a block collection or a key may start here, as it may on a new line outside of
-- brackets; there a tab is no blank.
def skip (flow fresh : Bool) : List Spot → Bool × List Spot
  | [] => (fresh, [])
  | s :: rest =>
    if s.char = ' ' || (s.char = '\t' && (flow || !fresh)) then skip flow fresh rest
    else if s.char = '\ufeff' && s.col = 0 then skip flow fresh rest
    else if isBreak s.char then skip flow (fresh || !flow) rest
    else if s.char = '#' then skipComment flow fresh rest
    else (fresh, s :: rest)

-- The same within a comment, which ends with its line.
def skipComment (flow fresh : Bool) : List Spot → Bool × List Spot
  | [] => (fresh, [])
  | s :: rest =>
    if isBreak s.char then skip flow (fresh || !flow) rest else skipComment flow fresh rest
end

end Yaml

end WikiQuery
