import XsdTypes.Config.Decode
import XsdTypes.Config.Json
import XsdTypes.Config.Yaml.Document
import XsdTypes.Files.System
import XsdTypes.Place.UnixPath

/-!
# Configuration files

The extension of a file says in which format it is written.
-/

namespace XsdTypes

/-- A configuration file that cannot be used. -/
structure ConfigError where
  /-- The path of the file. -/
  path : String
  /-- What is wrong with it. -/
  fault : ConfigFault
  deriving DecidableEq, Repr, Inhabited

/-- What the report of a faulty configuration file says, with the file. -/
def ConfigError.message (e : ConfigError) : String :=
  "Invalid configuration in '" ++ e.path ++ "': " ++ e.fault.message

namespace Config

/-- Whether a file is written in YAML: its name has one of the two extensions, and something before
it. All other files are written in JSON. -/
def isYaml (path : String) : Bool :=
  let name := (UnixPath.ofText path).parts.getLast?.getD ""
  [".yaml", ".yml"].any fun extension => (Text.stripEnd extension name).any (· ≠ "")

/-- What the text of a file holds. -/
def parse (path text : String) : Except ConfigFault Content :=
  let content? := if isYaml path then Yaml.read? text else Json.read? text
  content?.elim (.error .malformed) .ok

variable {m : Type → Type} [Monad m]

/-- Reads a file and makes something of what it holds. -/
def load {α : Type} (fs : FileSystem m) (decode : Content → Except ConfigFault α) (path : String) :
    m (Except ConfigError α) := do
  let result : Except ConfigFault α :=
    match ← fs.readText (Chars.bytes path.toList) with
    | .error cause => .error (.unreadable cause)
    | .ok text => do decode (← parse path text)
  return result.mapError fun fault => { path, fault }

/-- Reads the options of a compilation. -/
def loadOptions (fs : FileSystem m) (path : String) : m (Except ConfigError CompileOptions) :=
  load fs options path

/-- Reads a table of names. -/
def loadOverrides (fs : FileSystem m) (path : String) : m (Except ConfigError Table) :=
  load fs table path

end Config

end XsdTypes
