import XsdTypes.Text.Basic

/-!
# The flags of the command

Every flag has a long name, some have a letter as well, and some take a value.
-/

namespace XsdTypes

/-- A flag of the command. -/
inductive Flag where
  /-- The directory to write into. -/
  | out
  /-- Write into a directory rather than to the output. -/
  | cache
  /-- Read no local files. -/
  | noLocal
  /-- The host for remote documents. -/
  | forceHost
  /-- The port for remote documents. -/
  | forcePort
  /-- The namespace of a first document that names none. -/
  | ns
  /-- The name of the type of whole documents. -/
  | document
  /-- A file with names that take the place of others. -/
  | overrides
  /-- A file with options. -/
  | config
  /-- Print help. -/
  | help
  /-- Print the version. -/
  | version
  deriving DecidableEq, Repr, Inhabited

namespace Flag

/-- All flags, in the order in which help lists them. -/
def all : List Flag :=
  [out, cache, noLocal, forceHost, forcePort, ns, document, overrides, config, help, version]

/-- The long name, without its dashes. -/
def long : Flag → String
  | out => "out"
  | cache => "cache"
  | noLocal => "no-local"
  | forceHost => "force-host"
  | forcePort => "force-port"
  | ns => "namespace"
  | document => "document"
  | overrides => "override"
  | config => "config"
  | help => "help"
  | version => "version"

/-- The letter, if there is one. -/
def letter? : Flag → Option Char
  | out => some 'o'
  | config => some 'c'
  | help => some 'h'
  | version => some 'V'
  | _ => none

/-- What help calls the value, if the flag takes one. -/
def valueName? : Flag → Option String
  | out => some "OUT"
  | forceHost => some "FORCE_HOST"
  | forcePort => some "FORCE_PORT"
  | ns => some "NAMESPACE"
  | document => some "DOCUMENT"
  | overrides => some "FILE"
  | config => some "CONFIG"
  | _ => none

/-- What help says about the flag. -/
def summary : Flag → String
  | out => "Output directory for written files (implies --cache)"
  | cache =>
    "Write files and an index below the output directory (default `xmlns`) instead of printing them"
  | noLocal => "Refuse to read schemas from local paths"
  | forceHost => "Fetch remote schemas from this host instead"
  | forcePort => "Fetch remote schemas from this port instead (with --force-host)"
  | ns => "Namespace for a schema without targetNamespace"
  | document => "Name of the root class listing global elements"
  | overrides => "JSON or YAML file mapping schema names to identifiers"
  | config => "JSON or YAML file with compile options"
  | help => "Print help"
  | version => "Print version"

/-- Whether the flag takes a value. -/
def takesValue (f : Flag) : Bool :=
  f.valueName?.isSome

/-- Whether the value is a path, which is never empty. -/
def isPath (f : Flag) : Bool :=
  f = out || f = overrides || f = config

/-- The flag with a long name. -/
def ofLong? (name : String) : Option Flag :=
  all.find? (·.long = name)

/-- The flag with a letter. -/
def ofLetter? (c : Char) : Option Flag :=
  all.find? (·.letter? = some c)

/-- The flag as help shows it. -/
def text (f : Flag) : String :=
  "--" ++ f.long ++ (f.valueName?.map fun name => " <" ++ name ++ ">").getD ""

/-- The line of help about the flag, with what it says at the given column. -/
def helpLine (width : Nat) (f : Flag) : String :=
  let letter := (f.letter?.map fun c => "-" ++ c.toString ++ ", ").getD "    "
  "  " ++ letter ++ f.text ++ Text.times (width - f.text.length) " " ++ "  " ++ f.summary ++ "\n"

end Flag

namespace Command

/-- The name and the version of the program. -/
def versionText : String :=
  "xsdc 0.1.0\n"

/-- How the command is used, in one line. -/
def usageLine : String :=
  "Usage: xsdc [OPTIONS] <URL>\n"

/-- What help prints. -/
def helpText : String :=
  let width := (Flag.all.map (·.text.length)).foldl max 0
  "XML Schema to TypeScript declaration compiler\n\n" ++ usageLine ++
    "\nArguments:\n  <URL>  URL or path of the schema to compile\n\nOptions:\n" ++
    String.join (Flag.all.map (Flag.helpLine width))

end Command

end XsdTypes
