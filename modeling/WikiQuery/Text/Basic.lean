namespace WikiQuery.Text

-- A natural number in decimal digits.
def decimal (n : Nat) : String := String.ofList (Nat.toDigits 10 n)

-- A whole number in decimal digits, with a minus sign below zero.
def signed (i : Int) : String :=
  if i < 0 then "-" ++ decimal i.natAbs else decimal i.natAbs

-- The value of a digit, where letters of either case go on after nine.
def digitValue? (c : Char) : Option Nat :=
  if '0' ≤ c ∧ c ≤ '9' then some (c.toNat - '0'.toNat)
  else if 'a' ≤ c ∧ c ≤ 'z' then some (c.toNat - 'a'.toNat + 10)
  else if 'A' ≤ c ∧ c ≤ 'Z' then some (c.toNat - 'A'.toNat + 10)
  else none

-- Whether a character is a digit of a base.
def isDigitOf (base : Nat) (c : Char) : Bool := (digitValue? c).any (· < base)

-- The number that digits of a base stand for, the highest digit first. There has to be one.
def numeral? (base : Nat) (ds : List Char) : Option Nat :=
  if ds.isEmpty then none
  else ds.foldlM (fun n d => do
    let v ← digitValue? d
    if v < base then some (base * n + v) else none) 0

-- The character with a given number, if there is one.
def char? (n : Nat) : Option Char :=
  if n < 0xD800 ∨ (0xE000 ≤ n ∧ n < 0x110000) then some (Char.ofNat n) else none

-- How many hexadecimal digits follow a letter after a backslash.
def hexEscapeLength? : Char → Option Nat
  | 'x' => some 2
  | 'u' => some 4
  | 'U' => some 8
  | _ => none

-- The character that so many hexadecimal digits stand for.
def hexEscape? (length : Nat) (cs : List Char) : Option Char :=
  if length ≤ cs.length then numeral? 16 (cs.take length) >>= char? else none

-- The characters with Unicode's White_Space property.
def isBlank (c : Char) : Bool :=
  let n := c.toNat
  (9 ≤ n && n ≤ 13) || n == 0x20 || n == 0x85 || n == 0xA0 || n == 0x1680 ||
    (0x2000 ≤ n && n ≤ 0x200A) || n == 0x2028 || n == 0x2029 || n == 0x202F ||
    n == 0x205F || n == 0x3000

-- The text without the blanks at its two ends.
def trim (cs : List Char) : List Char :=
  ((cs.dropWhile isBlank).reverse.dropWhile isBlank).reverse

-- A title as it stands in a page's address: the ends are trimmed, and an inner space, though no
-- other blank, becomes an underscore.
def addressed (title : String) : String :=
  String.ofList ((trim title.toList).map fun c => if c = ' ' then '_' else c)

-- The text with every space replaced by an underscore, its ends included.
def underscored (s : String) : String :=
  String.ofList (s.toList.map fun c => if c = ' ' then '_' else c)

-- The inside of a quoted text: a quote or a backslash gets a backslash before it.
def escapeQuotes : List Char → List Char
  | [] => []
  | c :: cs =>
    if c = '"' ∨ c = '\\' then '\\' :: c :: escapeQuotes cs else c :: escapeQuotes cs

-- A text between double quotes, as it is written in a filter.
def quote (cs : List Char) : List Char :=
  '"' :: (escapeQuotes cs ++ ['"'])

def quoted (s : String) : String := String.ofList (quote s.toList)

-- The characters that mean something in a regular expression.
def regexSpecial : List Char :=
  ['\\', '.', '+', '*', '?', '(', ')', '|', '[', ']', '\x7b', '\x7d', '^', '$', '#', '&', '-', '~']

-- A character of a wildcard pattern as a piece of a regular expression: a star stands for any run
-- of characters, a question mark for one character, and everything else for itself.
def wildcardPiece (c : Char) : List Char :=
  if c = '*' then ['.', '*']
  else if c = '?' then ['.']
  else if c ∈ regexSpecial then ['\\', c]
  else [c]

-- The regular expression for a wildcard pattern, anchored at both ends.
def wildcardRegex (pattern : List Char) : List Char :=
  '^' :: (pattern.flatMap wildcardPiece ++ ['$'])

def likeRegex (pattern : String) : String := String.ofList (wildcardRegex pattern.toList)

end WikiQuery.Text
