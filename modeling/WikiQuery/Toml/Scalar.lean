import WikiQuery.Number.Nearest
import WikiQuery.Text.Basic
import WikiQuery.Toml.Basic

namespace WikiQuery.Toml

def isSpace (c : Char) : Bool := c = ' ' || c = '\t'

def skipSpace (cs : List Char) : List Char := cs.dropWhile isSpace

-- Control characters other than the tab have no place in a text or a comment.
def isControl (c : Char) : Bool := (c.toNat < 0x20 && c ≠ '\t') || c.toNat = 0x7F

def shortEscape? : Char → Option Char
  | 'b' => some '\x08'
  | 't' => some '\t'
  | 'n' => some '\n'
  | 'f' => some '\x0c'
  | 'r' => some '\r'
  | 'e' => some '\x1b'
  | '"' => some '"'
  | '\\' => some '\\'
  | _ => none

-- What follows a line's end, if one stands here.
def afterLine? : List Char → Option (List Char)
  | '\n' :: rest => some rest
  | '\r' :: '\n' :: rest => some rest
  | _ => none

-- Passes over blanks and line ends.
def skipBlankLines : List Char → List Char
  | [] => []
  | '\r' :: '\n' :: rest => skipBlankLines rest
  | c :: rest => if isSpace c || c = '\n' then skipBlankLines rest else c :: rest

-- A backslash at the end of a line: what follows after all blanks and line ends, if only blanks
-- stand between the backslash and the line's end.
def continued? (cs : List Char) : Option (List Char) :=
  (afterLine? (skipSpace cs)).map skipBlankLines

-- The text up to the closing quotes: one quote, or three for a text over several lines, in which
-- up to two quotes may stand before the closing ones. `literal` texts have no escapes. The ends of
-- lines are kept as they are written.
def textBody (quote : Char) (long literal : Bool) : Nat → List Char → Option (List Char × List Char)
  | 0, _ => none
  | _, [] => none
  | n + 1, c :: rest =>
    let keep (c : Char) (rest : List Char) :=
      (textBody quote long literal n rest).map fun (s, rest) => (c :: s, rest)
    if c = quote then
      if !long then some ([], rest)
      else if rest.take 2 = [quote, quote] ∧ (rest.drop 2).head? ≠ some quote then
        some ([], rest.drop 2)
      else if rest.take 4 = List.replicate 4 quote then some ([quote, quote], rest.drop 4)
      else keep c rest
    else if c = '\\' ∧ !literal then
      match if long then continued? rest else none with
      | some rest => textBody quote long literal n rest
      | none =>
        match rest with
        | [] => none
        | d :: rest =>
          match Text.hexEscapeLength? d with
          | some length => do keep (← Text.hexEscape? length rest) (rest.drop length)
          | none => do keep (← shortEscape? d) rest
    else if isControl c && !(long && (afterLine? (c :: rest)).isSome) then none
    else keep c rest

-- A text whose first quote has been read. Right after three opening quotes a line's end is no part
-- of the text.
def readText (quote : Char) (literal : Bool) (cs : List Char) : Option (String × List Char) :=
  let (long, cs) := match cs with
    | a :: b :: rest => if a = quote ∧ b = quote then (true, rest) else (false, cs)
    | cs => (false, cs)
  let cs := if long then (afterLine? cs).getD cs else cs
  (textBody quote long literal (cs.length + 1) cs).map fun (s, rest) => (String.ofList s, rest)

-- A text on one line, as in a key.
def readShortText (quote : Char) (literal : Bool) (cs : List Char) :
    Option (String × List Char) :=
  (textBody quote false literal (cs.length + 1) cs).map fun (s, rest) => (String.ofList s, rest)

-- Digits in which single underscores may stand between two digits.
def ungroup? (isDigit : Char → Bool) : List Char → Option (List Char)
  | [] => none
  | [d] => if isDigit d then some [d] else none
  | d :: '_' :: rest => if isDigit d then (ungroup? isDigit rest).map (d :: ·) else none
  | d :: e :: rest => if isDigit d then (ungroup? isDigit (e :: rest)).map (d :: ·) else none

-- The number that grouped digits of a base stand for.
def grouped? (base : Nat) (cs : List Char) : Option Nat :=
  ungroup? (Text.isDigitOf base) cs >>= Text.numeral? base

-- Decimal digits without a superfluous zero.
def whole? (cs : List Char) : Option (List Char) :=
  match cs with
  | '0' :: _ :: _ => none
  | cs => ungroup? Char.isDigit cs

def natural? (cs : List Char) : Option Nat := whole? cs >>= Text.numeral? 10

def integer? (cs : List Char) : Option Int :=
  match cs with
  | '+' :: ds => (natural? ds).map Int.ofNat
  | '-' :: ds => (natural? ds).map fun (n : Nat) => -(n : Int)
  | '0' :: 'x' :: ds => (grouped? 16 ds).map Int.ofNat
  | '0' :: 'o' :: ds => (grouped? 8 ds).map Int.ofNat
  | '0' :: 'b' :: ds => (grouped? 2 ds).map Int.ofNat
  | ds => (natural? ds).map Int.ofNat

def unsigned (cs : List Char) : List Char :=
  match cs with
  | '+' :: rest => rest
  | '-' :: rest => rest
  | rest => rest

-- The power of ten of a floating-point number.
def power? (cs : List Char) : Option Int := do
  let n ← ungroup? Char.isDigit (unsigned cs) >>= Text.numeral? 10
  return if cs.head? = some '-' then -(n : Int) else n

-- The number that digits with a fraction or an exponent stand for. One beyond the largest number
-- stands for none.
def float? (cs : List Char) : Option Number := do
  let mantissa := cs.takeWhile fun c => c ≠ 'e' && c ≠ 'E'
  let power := cs.drop mantissa.length
  let whole := mantissa.takeWhile (· ≠ '.')
  let fraction := mantissa.drop whole.length
  guard !(power.isEmpty && fraction.isEmpty)
  let places ← if fraction.isEmpty then some [] else ungroup? Char.isDigit (fraction.drop 1)
  let exponent ← if power.isEmpty then some 0 else power? (power.drop 1)
  let digits ← Text.numeral? 10 ((← whole? whole) ++ places)
  Number.ofDecimal false digits (exponent - places.length)

-- Whether a word is a floating-point number: a name or digits, with or without a sign.
def isFloat (cs : List Char) : Bool :=
  let cs := unsigned cs
  cs = ['i', 'n', 'f'] || cs = ['n', 'a', 'n'] || (float? cs).isSome

-- Whether a word has the shape of a pattern, in which a zero stands for a digit.
def hasShape (shape : String) (cs : List Char) : Bool :=
  shape.length = cs.length &&
    (shape.toList.zip cs).all fun (s, c) => if s = '0' then c.isDigit else s = c

-- The part of a word after a pattern at its start.
def afterShape? (shape : String) (cs : List Char) : Option (List Char) :=
  if hasShape shape (cs.take shape.length) then some (cs.drop shape.length) else none

-- The number in the first two digits of a text.
def twoDigits (cs : List Char) : Nat := (Text.numeral? 10 (cs.take 2)).getD 0

def daysOfMonth (year month : Nat) : Nat :=
  if month = 2 then if year % 4 = 0 ∧ (year % 100 ≠ 0 ∨ year % 400 = 0) then 29 else 28
  else if month ∈ [4, 6, 9, 11] then 30
  else 31

-- What follows a day of the calendar at the start of a word.
def afterDay? (cs : List Char) : Option (List Char) := do
  let rest ← afterShape? "0000-00-00" cs
  let year := 100 * twoDigits cs + twoDigits (cs.drop 2)
  let month := twoDigits (cs.drop 5)
  let day := twoDigits (cs.drop 8)
  guard (1 ≤ month ∧ month ≤ 12 ∧ 1 ≤ day ∧ day ≤ daysOfMonth year month)
  return rest

-- Hours and minutes at the start of a word, and what follows them.
def afterMinutes? (cs : List Char) : Option (List Char) := do
  let rest ← afterShape? "00:00" cs
  guard (twoDigits cs < 24 ∧ twoDigits (cs.drop 3) < 60)
  return rest

def isOffset (cs : List Char) : Bool :=
  match cs with
  | [] => true
  | c :: rest =>
    if c = '+' ∨ c = '-' then (afterMinutes? rest).any (·.isEmpty)
    else (c = 'Z' ∨ c = 'z') ∧ rest.isEmpty

-- A time of day, perhaps with seconds, of which there may be sixty, and parts of a second, and what
-- follows it.
def afterTime? (cs : List Char) : Option (List Char) := do
  let rest ← afterMinutes? cs
  match afterShape? ":00" rest with
  | none => return rest
  | some after =>
    guard (twoDigits (rest.drop 1) ≤ 60)
    match after with
    | '.' :: rest =>
      guard (rest.head?.any Char.isDigit)
      return rest.dropWhile Char.isDigit
    | rest => return rest

-- Whether a word is a date, a time of day, or both.
def isDate (cs : List Char) : Bool :=
  match afterDay? cs with
  | some [] => true
  | some (t :: rest) => (t = 'T' || t = 't' || t = ' ') && (afterTime? rest).any isOffset
  | none => (afterTime? cs).any (·.isEmpty)

-- Whole numbers have up to 128 bits, in which negative ones need one for the sign.
def isInRange (i : Int) : Bool :=
  -0x80000000000000000000000000000000 ≤ i && i < 0x100000000000000000000000000000000

-- What a word stands for.
def ofWord? (cs : List Char) : Option Toml :=
  if cs = ['t', 'r', 'u', 'e'] then some (.boolean true)
  else if cs = ['f', 'a', 'l', 's', 'e'] then some (.boolean false)
  else match integer? cs with
    | some i => if isInRange i then some (.integer i) else none
    | none => if isFloat cs || isDate cs then some .other else none

def isWordChar (c : Char) : Bool :=
  c.isAlphanum || c = '+' || c = '-' || c = '_' || c = '.' || c = ':'

-- A word that is a value. A date and a time of day may be set apart by a space.
def readWord (cs : List Char) : Option (Toml × List Char) :=
  let word := cs.takeWhile isWordChar
  let rest := cs.drop word.length
  let second := (rest.drop 1).takeWhile isWordChar
  if hasShape "0000-00-00" word ∧ rest.head? = some ' ' ∧ (afterShape? "00:00" second).isSome then
    (ofWord? (word ++ ' ' :: second)).map fun v => (v, rest.drop (second.length + 1))
  else (ofWord? word).map fun v => (v, rest)

end WikiQuery.Toml
