import XsdTypes.Config.Options
import XsdTypes.Fetch.Source
import XsdTypes.Model.Imports
import XsdTypes.Model.Naming
import XsdTypes.Output.Staging
import XsdTypes.Schema.Loading

/-!
# Compilation

A schema document and all that it refers to is loaded, exported, given names and imports, and
written. Nothing is stored before everything has been written without an error.
-/

namespace XsdTypes

/-- The stages of a compilation after loading. -/
inductive Stage where
  | exporting
  | rendering
  | writing
  deriving DecidableEq, Repr

/-- The word for a stage in messages. -/
def Stage.text : Stage → String
  | .exporting => "export"
  | .rendering => "render"
  | .writing => "write"

/-- Why a compilation fails. -/
inductive CompileError where
  /-- The documents cannot be loaded. -/
  | load (url : String) (cause : SchemaError)
  /-- A later stage fails. -/
  | later (stage : Stage) (url : String) (cause : ExportError)
  deriving DecidableEq, Repr

/-- What the report of a failed compilation says. -/
def CompileError.message : CompileError → String
  | .load url cause => "Failed to load '" ++ url ++ "': " ++ cause.message
  | .later stage url cause =>
    "Failed to " ++ stage.text ++ " '" ++ url ++ "': " ++ cause.message

/-- The messages of a failure, of what caused it, of what caused that, and so on. -/
def CompileError.messages (e : CompileError) : List String :=
  e.message ::
    match e with
    | .load _ cause => [cause.message]
    | .later _ _ cause => cause.messages

namespace Compile

/-- The model of a namespace and all that it refers to, with names and imports. -/
def buildModel (g : Graph) (ns : NamespaceId) (options : CompileOptions) :
    Except ExportError Model := do
  let (result, target) := (Lowering.exportNamespace options.exportOptions g ns).run.run {}
  let _ ← result
  let (model, _) := Imports.add target.model
  let (model, _) := Naming.run options.overrides (model, [])
  return Imports.finish model

/-- The files that a loaded namespace becomes. -/
def files (url : String) (g : Graph) (ns : NamespaceId) (options : CompileOptions) :
    Except CompileError (List Script.File) := do
  let model ← (buildModel g ns options).mapError (.later .exporting url)
  (Script.renderAll model).mapError (.later .rendering url)

/-- The files by path. -/
def collect (files : List Script.File) : Table :=
  files.foldl (fun map file => Table.put file.path file.text map) []

/-- The files staged for a directory. -/
def stageAll (root : String) (files : List Script.File) : Except ExportError Staging :=
  files.foldlM (fun staging file => staging.stage file.path file.text) { root }

variable {m : Type → Type} [Monad m]

/-- Delivers files: as a map, or into the directory that the options name. -/
def deliver (fs : FileSystem m) (options : CompileOptions) (files : List Script.File) :
    m (Except ExportError (Option Table)) := do
  match options.cache with
  | none => return .ok (some (collect files))
  | some root =>
    match stageAll root files with
    | .error e => return .error e
    | .ok staging =>
      match ← staging.finish fs with
      | .error e => return .error e
      | .ok () => return .ok none

/-- Compiles the document at a URL. At most `limit` documents are fetched. -/
def run (source : DocumentSource m) (fs : FileSystem m) (limit : Nat) (url : String)
    (options : CompileOptions) : m (Except CompileError (Option Table)) := do
  match ← Loading.load source limit (Graph.initial .standard) url options.ns with
  | .error halt => return .error (.load url halt.error)
  | .ok (g, ns) =>
    match files url g ns options with
    | .error e => return .error e
    | .ok files => return (← deliver fs options files).mapError (.later .writing url)

end Compile

end XsdTypes
