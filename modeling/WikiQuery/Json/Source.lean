import WikiQuery.Json.Basic
import WikiQuery.Number.Nearest
import WikiQuery.Text.Basic

namespace WikiQuery

-- A JSON number as it is written: `digits * 10 ^ exponent`, and whether it has neither a fraction
-- nor an exponent.
structure JsonNumeral where
  negative : Bool
  digits : Nat
  exponent : Int
  whole : Bool

-- A JSON document as it is written. A string with half of a surrogate pair in it is well formed
-- but stands for no text, and a number may lie beyond the numbers that can be held.
inductive JsonSource where
  | null
  | bool (b : Bool)
  | numeral (n : JsonNumeral)
  | text (s : Option String)
  | array (items : List JsonSource)
  | object (members : List (Option String × JsonSource))

namespace JsonSource

def isSpace (c : Char) : Bool := c = ' ' || c = '\n' || c = '\t' || c = '\r'

def skipSpace (cs : List Char) : List Char := cs.dropWhile isSpace

-- The character behind a backslash, other than the four-digit form.
def shortEscape? : Char → Option Nat
  | '"' => some 0x22
  | '\\' => some 0x5C
  | '/' => some 0x2F
  | 'b' => some 0x08
  | 'f' => some 0x0C
  | 'n' => some 0x0A
  | 'r' => some 0x0D
  | 't' => some 0x09
  | _ => none

-- The code units of a string up to its closing quote, and what follows it. Control characters
-- have to be escaped.
def stringUnits : List Char → Option (List Nat × List Char)
  | [] => none
  | '"' :: rest => some ([], rest)
  | '\\' :: 'u' :: a :: b :: c :: d :: rest => do
    let unit ← Text.numeral? 16 [a, b, c, d]
    let (units, rest) ← stringUnits rest
    return (unit :: units, rest)
  | '\\' :: c :: rest => do
    let unit ← shortEscape? c
    let (units, rest) ← stringUnits rest
    return (unit :: units, rest)
  | c :: rest =>
    if c.toNat < 0x20 ∨ c = '\\' then none
    else do
      let (units, rest) ← stringUnits rest
      return (c.toNat :: units, rest)

-- Joins surrogate pairs; half a pair on its own is no character.
def joinUnits : List Nat → Option (List Char)
  | [] => some []
  | [u] => if 0xD800 ≤ u ∧ u < 0xE000 then none else some [Char.ofNat u]
  | u :: v :: rest =>
    if 0xD800 ≤ u ∧ u < 0xDC00 then
      if 0xDC00 ≤ v ∧ v < 0xE000 then
        (joinUnits rest).map (Char.ofNat (0x10000 + (u - 0xD800) * 1024 + (v - 0xDC00)) :: ·)
      else none
    else if 0xDC00 ≤ u ∧ u < 0xE000 then none
    else (joinUnits (v :: rest)).map (Char.ofNat u :: ·)

-- A string whose opening quote has been read.
def readString (cs : List Char) : Option (Option String × List Char) := do
  let (units, rest) ← stringUnits cs
  return ((joinUnits units).map String.ofList, rest)

-- The digits at the start of a text, and the rest.
def spanDigits (cs : List Char) : List Char × List Char :=
  (cs.takeWhile Char.isDigit, cs.dropWhile Char.isDigit)

-- The exponent after the letter `e`: an optional sign and at least one digit.
def exponentPart (cs : List Char) : Option (Int × List Char) :=
  let (negative, cs) := match cs with
    | '+' :: rest => (false, rest)
    | '-' :: rest => (true, rest)
    | cs => (false, cs)
  let (ds, rest) := spanDigits cs
  (Text.numeral? 10 ds).map fun (n : Nat) => (if negative then -(n : Int) else n, rest)

-- A number: the whole part has no superfluous zero, a point is followed by digits.
def readNumeral (cs : List Char) : Option (JsonNumeral × List Char) := do
  let (negative, cs) := match cs with
    | '-' :: rest => (true, rest)
    | cs => (false, cs)
  let (whole, rest) := spanDigits cs
  guard (whole ≠ [] ∧ (whole.length = 1 ∨ whole.head? ≠ some '0'))
  let (fraction, rest) ← match rest with
    | '.' :: rest =>
      let (ds, rest) := spanDigits rest
      if ds = [] then none else some (ds, rest)
    | rest => some ([], rest)
  let (power, bare, rest) ← match rest with
    | 'e' :: rest => (exponentPart rest).map fun (n, rest) => (n, false, rest)
    | 'E' :: rest => (exponentPart rest).map fun (n, rest) => (n, false, rest)
    | rest => some ((0 : Int), true, rest)
  let digits ← Text.numeral? 10 (whole ++ fraction)
  return (⟨negative, digits, power - fraction.length, fraction.isEmpty && bare⟩, rest)

-- A word that stands at the start of a text.
def readWord (w : String) (cs : List Char) : Option (List Char) :=
  if w.toList.isPrefixOf cs then some (cs.drop w.length) else none

mutual
-- A value at the start of a text. Each step down or along takes one unit of fuel.
def readValue : Nat → List Char → Option (JsonSource × List Char)
  | 0, _ => none
  | n + 1, cs =>
    match skipSpace cs with
    | '"' :: rest => (readString rest).map fun (s, rest) => (.text s, rest)
    | '[' :: rest =>
      match skipSpace rest with
      | ']' :: rest => some (.array [], rest)
      | rest => (readItems n rest).map fun (vs, rest) => (.array vs, rest)
    | '\x7b' :: rest =>
      match skipSpace rest with
      | '\x7d' :: rest => some (.object [], rest)
      | rest => (readMembers n rest).map fun (ms, rest) => (.object ms, rest)
    | 'n' :: rest => (readWord "ull" rest).map fun rest => (.null, rest)
    | 't' :: rest => (readWord "rue" rest).map fun rest => (.bool true, rest)
    | 'f' :: rest => (readWord "alse" rest).map fun rest => (.bool false, rest)
    | cs => (readNumeral cs).map fun (x, rest) => (.numeral x, rest)

-- The items of an array up to its closing bracket.
def readItems : Nat → List Char → Option (List JsonSource × List Char)
  | 0, _ => none
  | n + 1, cs => do
    let (v, rest) ← readValue n cs
    match skipSpace rest with
    | ',' :: rest =>
      let (vs, rest) ← readItems n rest
      return (v :: vs, rest)
    | ']' :: rest => return ([v], rest)
    | _ => none

-- The members of an object up to its closing brace.
def readMembers : Nat → List Char → Option (List (Option String × JsonSource) × List Char)
  | 0, _ => none
  | n + 1, cs => do
    match skipSpace cs with
    | '"' :: rest =>
      let (key, rest) ← readString rest
      match skipSpace rest with
      | ':' :: rest =>
        let (v, rest) ← readValue n rest
        match skipSpace rest with
        | ',' :: rest =>
          let (ms, rest) ← readMembers n rest
          return ((key, v) :: ms, rest)
        | '\x7d' :: rest => return ([(key, v)], rest)
        | _ => none
      | _ => none
    | _ => none
end

-- Reads a document that holds one value and nothing else. Every character pays for at most two
-- steps of the reader, so the fuel is never used up.
def read (cs : List Char) : Option JsonSource := do
  let (v, rest) ← readValue (2 * cs.length + 2) cs
  guard (skipSpace rest = [])
  return v

end JsonSource

namespace JsonNumeral

-- A whole number of at most 64 bits, signed or unsigned. Minus zero is none.
def integer? (n : JsonNumeral) : Option Int :=
  let i : Int := if n.negative then -n.digits else n.digits
  if n.whole ∧ ¬(n.negative ∧ n.digits = 0) ∧ -0x8000000000000000 ≤ i ∧
      i < 0x10000000000000000 then some i else none

-- The value of a number: whole where it can be, else the nearest floating-point number.
def toJson? (n : JsonNumeral) : Option Json :=
  match n.integer? with
  | some i => some (.int i)
  | none => (Number.ofDecimal n.negative n.digits n.exponent).map .number

end JsonNumeral

namespace JsonSource

mutual
-- The value that is written, if every part has one.
def toJson? : JsonSource → Option Json
  | .null => some .null
  | .bool b => some (.bool b)
  | .numeral n => n.toJson?
  | .text s => s.map .text
  | .array items => (itemsToJson? items).map .array
  | .object members => (membersToJson? members).map .object

def itemsToJson? : List JsonSource → Option (List Json)
  | [] => some []
  | s :: rest => do return (← s.toJson?) :: (← itemsToJson? rest)

def membersToJson? : List (Option String × JsonSource) → Option (List (String × Json))
  | [] => some []
  | (k, s) :: rest => do return (← k, ← s.toJson?) :: (← membersToJson? rest)
end

end JsonSource

-- Reads a JSON text.
def Json.parse (cs : List Char) : Option Json := JsonSource.read cs >>= JsonSource.toJson?

end WikiQuery
