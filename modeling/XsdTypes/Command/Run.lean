import XsdTypes.Command.Arguments
import XsdTypes.Compile
import XsdTypes.Config.File

/-!
# Running the command

The command compiles one document with options from a file and from its flags, of which the flags
count more. It prints the files or writes them into a directory.
-/

namespace XsdTypes

/-- What a run of the command leaves, its files apart. -/
structure Outcome where
  /-- The exit code. -/
  code : Nat := 0
  /-- What it prints. -/
  output : String := ""
  /-- What it reports about its failure. -/
  report : String := ""
  deriving DecidableEq, Repr, Inhabited

namespace Command

/-- The directory to write into if no other is named. -/
def defaultRoot : String := "xmlns"

/-- The options with the flags that are given in the place of what they say. -/
def applyFlags (a : Arguments) (o : CompileOptions) : CompileOptions where
  allowLocal := o.allowLocal && !a.has .noLocal
  cache :=
    if a.has .cache || a.has .out then some (((a.value? .out).or o.cache).getD defaultRoot)
    else o.cache
  forceHost := (a.value? .forceHost).or o.forceHost
  forcePort := ((a.value? .forcePort).bind Arguments.port?).or o.forcePort
  ns := (a.value? .ns).or o.ns
  document := (a.value? .document).getD o.document
  overrides := o.overrides

/-! ## Reports -/

/-- A message with its lines after the first moved to the right. -/
def indentLines (width : Nat) (message : String) : String :=
  Text.join ("\n" ++ Text.times width " ") (Text.splitAt (· == '\n') message)

/-- The causes of an error, which are numbered if there are several. -/
def causeLines (causes : List String) : List String :=
  match causes with
  | [] => []
  | [cause] => ["    " ++ indentLines 4 cause]
  | causes =>
    causes.zipIdx.map fun (cause, n) =>
      let number := toString n
      Text.times (5 - number.length) " " ++ number ++ ": " ++ indentLines 7 cause

/-- The report of an error with its causes. -/
def report (message : String) (causes : List String) : String :=
  let lines := (causeLines causes).map ("\n" ++ ·)
  let explained := if causes.isEmpty then [] else "\n\nCaused by:" :: lines
  "Error: " ++ message ++ String.join explained ++ "\n"

/-- The report of refused arguments. -/
def usageReport (e : UsageError) : String :=
  "error: " ++ e.message ++ "\n\n" ++ usageLine ++ "\nFor more information, try '--help'.\n"

/-- Files as they are printed: the path on a line of its own before each. -/
def printed (files : Table) : String :=
  String.join (files.map fun (path, text) => "// " ++ path ++ "\n" ++ text)

/-! ## The run -/

variable {m : Type → Type} [Monad m]

/-- The options of a compilation: from the file of options, then from the flags, then from the file
of names. -/
def loadOptions (fs : FileSystem m) (a : Arguments) : m (Except ConfigError CompileOptions) := do
  let base ←
    match a.value? .config with
    | some path => Config.loadOptions fs path
    | none => pure (.ok {})
  match base with
  | .error e => return .error e
  | .ok base =>
    let options := applyFlags a base
    match a.value? .overrides with
    | none => return .ok options
    | some path =>
      match ← Config.loadOverrides fs path with
      | .error e => return .error e
      | .ok more => return .ok { options with overrides := Table.putAll more options.overrides }

/-- How many documents one run fetches at most. -/
def documentLimit : Nat := 1000000

/-- Compiles a document from files, each of which is read at most once. -/
def compile (fs : FileSystem m) (url : String) (options : CompileOptions) :
    m (Except CompileError (Option Table)) := do
  let source := (defaultSource fs.readText options.fetchOptions).cached
  let (result, _) ← (Compile.run source fs.lift documentLimit url options).run []
  return result

/-- Runs the command. -/
def run (fs : FileSystem m) (args : List String) : m Outcome := do
  match Arguments.read args with
  | .error e => return { code := 2, report := usageReport e }
  | .ok .help => return { output := helpText }
  | .ok .version => return { output := versionText }
  | .ok (.compile url a) =>
    match ← loadOptions fs a with
    | .error e => return { code := 1, report := report e.message [] }
    | .ok options =>
      match ← compile fs url options with
      | .error e => return { code := 1, report := report ("Failed to compile " ++ url) e.messages }
      | .ok none => return {}
      | .ok (some files) => return { output := printed files }

end Command

end XsdTypes
