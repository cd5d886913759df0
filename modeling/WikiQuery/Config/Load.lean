import WikiQuery.Config.Basic
import WikiQuery.Config.Json
import WikiQuery.Event
import WikiQuery.Toml.Document
import WikiQuery.Yaml.Document

namespace WikiQuery

namespace Toml

def text? : Toml → Option String
  | text s => some s
  | _ => none

def depth? : Toml → Option UInt32
  | integer i => depthOfInt? i
  | _ => none

def flag? : Toml → Option Bool
  | boolean b => some b
  | _ => none

def entries? : Toml → Option (List (String × Toml))
  | table entries => some entries
  | _ => none

end Toml

namespace Yaml

-- Every scalar can be read as a text.
def text? : Yaml → Option String
  | scalar _ s => some s
  | _ => none

-- A number without a sign, in one of four bases. Decimal numbers do not start with a zero.
def unsigned? : List Char → Option Nat
  | '0' :: 'x' :: cs => Text.numeral? 16 cs
  | '0' :: 'o' :: cs => Text.numeral? 8 cs
  | '0' :: 'b' :: cs => Text.numeral? 2 cs
  | ['0'] => some 0
  | '0' :: _ => none
  | cs => Text.numeral? 10 cs

def depth? : Yaml → Option UInt32
  | scalar true s =>
    let n := match s.toList with
      | '+' :: cs => unsigned? cs
      | cs => unsigned? cs
    n >>= fun n => depthOfInt? n
  | _ => none

def flag? : Yaml → Option Bool
  | scalar true s =>
    if s ∈ ["true", "True", "TRUE"] then some true
    else if s ∈ ["false", "False", "FALSE"] then some false
    else none
  | _ => none

-- The entries of a mapping, whose keys have to be scalars. Where nothing is written there are no
-- entries.
def entries? : Yaml → Option (List (String × Yaml))
  | mapping entries => entries.mapM fun (key, value) => key.text?.map (·, value)
  | scalar true "" => some []
  | _ => none

end Yaml

namespace Reading

def toml : Reading Toml := ⟨Toml.text?, Toml.depth?, Toml.flag?, Toml.entries?⟩

def yaml : Reading Yaml := ⟨Yaml.text?, Yaml.depth?, Yaml.flag?, Yaml.entries?⟩

end Reading

namespace Settings

-- The settings in a text of a format, whether they can be used or not.
def parse? (format : Format) (content : String) : Option Settings :=
  match format with
  | .toml => Toml.read content.toList >>= Reading.toml.configuration?
  | .yaml => Yaml.read content.toList >>= Reading.yaml.configuration?
  | .json => JsonSource.read content.toList >>= Reading.jsonSource.configuration?

-- Refuses settings with a fault.
def validate (s : Settings) : Except ConfigError Settings :=
  match s.fault? with
  | some fault => .error (.invalid fault)
  | none => .ok s

-- Loads settings from a text.
def load (format : Format) (content : String) : Except ConfigError Settings :=
  match parse? format content with
  | some s => s.validate
  | none => .error (.malformed format)

end Settings

namespace Format

-- The format of a file by its name.
def ofPath (path : String) : Except ConfigError Format :=
  let ending := pathExtension path
  match ofExtension? ending with
  | some format => .ok format
  | none => .error (.unsupportedFormat ending path)

end Format

namespace Settings

-- The text of a file, given its bytes if there is such a file.
def fileText (path : String) (bytes : Option ByteArray) : Except ConfigError String :=
  match bytes with
  | none => .error (.unreadable path .missing)
  | some bytes =>
    match String.fromUTF8? bytes with
    | some content => .ok content
    | none => .error (.unreadable path .notText)

-- Loads settings from a file, and reports it. The name of the file decides before it is read.
def loadFile (path : String) (bytes : Option ByteArray) :
    Except ConfigError Settings × List Event :=
  match Format.ofPath path with
  | .error e => (.error e, [])
  | .ok format =>
    match fileText path bytes with
    | .error e => (.error e, [])
    | .ok content => (load format content, [.loadingConfig path format])

end Settings

end WikiQuery
