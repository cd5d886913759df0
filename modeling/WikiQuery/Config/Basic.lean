import WikiQuery.Text.Basic

namespace WikiQuery

-- The settings of the compiler.
structure Settings where
  -- what the names of fresh variables start with; a number follows
  stem : String := "v"
  -- the variable of the results
  result : String := "result"
  -- what is added to the name of a variable for the variable that holds what it sorts by
  sortSuffix : String := "sk"
  -- how far below a category its members may be; zero asks for no closure
  categoryDepth : UInt32 := 10
  -- how far below a property its values may be; zero asks for no closure
  propertyDepth : UInt32 := 10
  -- whether a comparator without effect is worth a warning
  warnOnIgnored : Bool := false
deriving DecidableEq

-- A setting that can be at fault.
inductive Setting where
  | stem
  | result
  | sortSuffix
  | categoryDepth
  | propertyDepth
deriving DecidableEq

namespace Setting

def path : Setting → String
  | stem => "compiler.variable_prefix"
  | result => "compiler.result_variable"
  | sortSuffix => "compiler.sort_key_suffix"
  | categoryDepth => "compiler.category_hierarchy_depth"
  | propertyDepth => "compiler.property_hierarchy_depth"

end Setting

-- Why settings are refused.
inductive Fault where
  | empty (setting : Setting)
  | badCharacter (setting : Setting) (value : String)
  | collision (result stem : String)
  | tooDeep (setting : Setting) (depth : UInt32)
deriving DecidableEq

namespace Settings

-- The largest depth of a closure.
def maxDepth : UInt32 := 100

end Settings

namespace Fault

def setting : Fault → Setting
  | empty s => s
  | badCharacter s _ => s
  | collision _ _ => .result
  | tooDeep s _ => s

def explanation : Fault → String
  | empty _ => "must not be empty"
  | badCharacter _ value => "'" ++ value ++ "' may only contain ASCII letters, digits and '_'"
  | collision result stem =>
    "'" ++ result ++ "' collides with fresh variables prefixed '" ++ stem ++ "'"
  | tooDeep _ depth =>
    Text.decimal depth.toNat ++ " exceeds maximum of " ++ Text.decimal Settings.maxDepth.toNat

def message (f : Fault) : String :=
  "Invalid value for " ++ f.setting.path ++ ": " ++ f.explanation

end Fault

namespace Settings

-- The characters of a variable's name.
def isNameChar (c : Char) : Bool := c.isAlphanum || c = '_'

-- What follows a given beginning.
def after? (start name : List Char) : Option (List Char) :=
  if start.isPrefixOf name then some (name.drop start.length) else none

-- What stands before a given end.
def before? (ending name : List Char) : Option (List Char) :=
  if ending.isSuffixOf name then some (name.take (name.length - ending.length)) else none

-- Whether a name is the stem followed by a number.
def numbered (stem name : List Char) : Bool :=
  match after? stem name with
  | some digits => !digits.isEmpty && digits.all Char.isDigit
  | none => false

-- Whether the variable of the results could also be a fresh variable, or the variable that holds
-- what a fresh variable sorts by.
def collides (s : Settings) : Bool :=
  numbered s.stem.toList s.result.toList ||
    match before? s.sortSuffix.toList s.result.toList with
    | some name => numbered s.stem.toList name
    | none => false

def nameFault? (setting : Setting) (value : String) : Option Fault :=
  if value.isEmpty then some (.empty setting)
  else if value.toList.all isNameChar then none
  else some (.badCharacter setting value)

def depthFault? (setting : Setting) (depth : UInt32) : Option Fault :=
  if maxDepth < depth then some (.tooDeep setting depth) else none

-- The first fault of the settings, if they have one.
def fault? (s : Settings) : Option Fault :=
  (nameFault? .stem s.stem).or <|
  (nameFault? .result s.result).or <|
  (nameFault? .sortSuffix s.sortSuffix).or <|
  (if s.collides then some (.collision s.result s.stem) else none).or <|
  (depthFault? .categoryDepth s.categoryDepth).or <|
  depthFault? .propertyDepth s.propertyDepth

end Settings

-- The formats of configuration files.
inductive Format where
  | toml
  | yaml
  | json
deriving DecidableEq

namespace Format

def name : Format → String
  | toml => "TOML"
  | yaml => "YAML"
  | json => "JSON"

-- Splits a text at every slash.
def pathParts (path : List Char) : List (List Char) := path.splitOn '/'

-- The name of the file that a path leads to. Empty parts and single dots lead nowhere further, and
-- a path to the directory above names no file.
def fileName? (path : List Char) : Option (List Char) :=
  match ((pathParts path).filter fun part => !part.isEmpty && part != ['.']).getLast? with
  | some ['.', '.'] => none
  | name => name

-- What follows the last dot of a file name, unless that dot is its first character.
def extension? (name : List Char) : Option (List Char) :=
  let ending := (name.reverse.takeWhile (· ≠ '.')).reverse
  if ending.length + 1 < name.length then some ending else none

-- The ending of a path's file name, with its ASCII letters in lower case; empty if it has none.
def pathExtension (path : String) : String :=
  match fileName? path.toList >>= extension? with
  | some ending => String.ofList (ending.map Char.toLower)
  | none => ""

-- The format that a file name's ending stands for.
def ofExtension? (ending : String) : Option Format :=
  if ending = "toml" then some toml
  else if ending = "yaml" ∨ ending = "yml" then some yaml
  else if ending = "json" then some json
  else none

end Format

-- Why a file cannot be read as a text.
inductive ReadFailure where
  | missing
  | notText
deriving DecidableEq

namespace ReadFailure

def message : ReadFailure → String
  | missing => "No such file or directory (os error 2)"
  | notText => "stream did not contain valid UTF-8"

end ReadFailure

-- Why a configuration cannot be loaded.
inductive ConfigError where
  | unreadable (path : String) (cause : ReadFailure)
  | unsupportedFormat (ending path : String)
  | malformed (format : Format)
  | invalid (fault : Fault)
deriving DecidableEq

namespace ConfigError

def message : ConfigError → String
  | unreadable path cause => "Failed to read " ++ path ++ ": " ++ cause.message
  | unsupportedFormat ending path =>
    "Unsupported config format: '" ++ ending ++ "' (" ++ path ++ ")"
  | malformed format => "Failed to parse " ++ format.name
  | invalid fault => fault.message

end ConfigError

end WikiQuery
