import WikiQuery.Json.Basic
import WikiQuery.Number.Layout
import WikiQuery.Text.Basic

namespace WikiQuery.Json

def hexDigit (n : Nat) : Char := (Nat.toDigits 16 n).getLastD '0'

-- A character inside a string. Quote, backslash and control characters are escaped, everything
-- else stands for itself.
def escapeChar (c : Char) : List Char :=
  if c = '"' then ['\\', '"']
  else if c = '\\' then ['\\', '\\']
  else if c = '\n' then ['\\', 'n']
  else if c = '\r' then ['\\', 'r']
  else if c = '\t' then ['\\', 't']
  else if c.toNat = 0x08 then ['\\', 'b']
  else if c.toNat = 0x0C then ['\\', 'f']
  else if c.toNat < 0x20 then
    ['\\', 'u', '0', '0', hexDigit (c.toNat / 16), hexDigit (c.toNat % 16)]
  else [c]

def printText (s : String) : String :=
  String.ofList ('"' :: (s.toList.flatMap escapeChar ++ ['"']))

-- A number that is not finite has no JSON form and is written as null.
def printNumber (x : Number) : String :=
  if x.isFinite then String.ofList (NumberLayout.json.write x) else "null"

-- How the parts of arrays and objects are set apart: by nothing, or each on a line of its own that
-- is indented by two more spaces.
inductive Spacing where
  | compact
  | lines

namespace Spacing

-- What stands before a part at a given nesting depth.
def breakAt : Spacing → Nat → String
  | compact, _ => ""
  | lines, depth => String.ofList ('\n' :: List.replicate (2 * depth) ' ')

def colon : Spacing → String
  | compact => ":"
  | lines => ": "

end Spacing

mutual
-- The text of a value whose parts are at nesting depth `depth + 1`.
def print (spacing : Spacing) (depth : Nat) : Json → String
  | .null => "null"
  | .bool true => "true"
  | .bool false => "false"
  | .int i => Text.signed i
  | .number x => printNumber x
  | .text s => printText s
  | .array [] => "[]"
  | .array (v :: vs) =>
    "[" ++ spacing.breakAt (depth + 1) ++ print spacing (depth + 1) v ++
      printItems spacing (depth + 1) vs ++ spacing.breakAt depth ++ "]"
  | .object [] => "\x7b\x7d"
  | .object ((k, v) :: ms) =>
    "\x7b" ++ spacing.breakAt (depth + 1) ++ printText k ++ spacing.colon ++
      print spacing (depth + 1) v ++ printMembers spacing (depth + 1) ms ++
      spacing.breakAt depth ++ "\x7d"

-- The items after the first.
def printItems (spacing : Spacing) (depth : Nat) : List Json → String
  | [] => ""
  | v :: vs =>
    "," ++ spacing.breakAt depth ++ print spacing depth v ++ printItems spacing depth vs

-- The members after the first.
def printMembers (spacing : Spacing) (depth : Nat) : List (String × Json) → String
  | [] => ""
  | (k, v) :: ms =>
    "," ++ spacing.breakAt depth ++ printText k ++ spacing.colon ++ print spacing depth v ++
      printMembers spacing depth ms
end

-- The value on one line, without blanks.
def compact (j : Json) : String := print .compact 0 j

-- The value over several lines.
def pretty (j : Json) : String := print .lines 0 j

end WikiQuery.Json
