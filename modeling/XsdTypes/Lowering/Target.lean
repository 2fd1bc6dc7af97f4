import XsdTypes.Files.Fault
import XsdTypes.Lowering.Path
import XsdTypes.Model.Basic
import XsdTypes.Schema.Graph

/-!
# Models under construction

While a graph becomes a model, it is kept which node has become which declaration and which
namespace has become which module, so that nothing becomes two things.
-/

namespace XsdTypes

/-- Why a file cannot be written. -/
inductive WriteFault where
  /-- The path leads out of the output directory. -/
  | escapes
  /-- The file system refuses. -/
  | file (fault : FileFault)
  deriving DecidableEq, Repr

/-- What the report of a refused file says. -/
def WriteFault.message : WriteFault → String
  | .escapes => "path escapes the output directory"
  | .file fault => fault.message

/-- Why a model cannot be made, written or stored. -/
inductive ExportError where
  /-- A named type belongs to an exported namespace that does not have it. -/
  | unexported (name : QName) (place : Location)
  /-- A module refers to another without an import. -/
  | missingImport (importer target : String)
  /-- A number means nothing. -/
  | model (cause : ModelError)
  /-- A type without a name contains itself, so that its text has no end. -/
  | endless (id : TypeId)
  /-- A file cannot be written. -/
  | write (path : String) (cause : WriteFault)
  deriving DecidableEq, Repr

/-- What the report of a failed export says. -/
def ExportError.message : ExportError → String
  | .unexported name place => "Type '" ++ name.full ++ "' at " ++ place.text ++ " was not exported"
  | .missingImport importer target =>
    "Module '" ++ importer ++ "' references '" ++ target ++ "' without an import"
  | .model cause => "Model error: " ++ cause.message
  | .endless id => s!"Type #{id} contains itself"
  | .write path cause => "Failed to write " ++ path ++ ": " ++ cause.message

/-- The message of a failed export, and that of what caused it if it is an error of its own. -/
def ExportError.messages (e : ExportError) : List String :=
  e.message ::
    match e with
    | .model cause => [cause.message]
    | _ => []

/-- A model under construction. -/
structure Target where
  /-- The model so far. -/
  model : Model := {}
  /-- The declarations that nodes have become. -/
  types : List (NodeId × TypeId) := []
  /-- The modules that namespaces have become. -/
  modules : List (NamespaceId × ModuleId) := []
  /-- The namespaces whose export has begun. -/
  exported : List NamespaceId := []
  deriving Inhabited

namespace Target

/-- Whether the export of a namespace has begun. -/
def isExported (t : Target) (ns : NamespaceId) : Bool :=
  t.exported.contains ns

/-- The module of a namespace. -/
def moduleOf? (t : Target) (ns : NamespaceId) : Option ModuleId :=
  t.modules.lookup ns

/-- The declaration of a node. -/
def typeOf? (t : Target) (node : NodeId) : Option TypeId :=
  t.types.lookup node

/-- The module of a namespace, which is added if it is new. -/
def moduleFor (t : Target) (g : Graph) (ns : NamespaceId) : Target × ModuleId :=
  match t.moduleOf? ns with
  | some id => (t, id)
  | none =>
    let uri := (g.namespaceAt ns).uri
    let (model, id) := t.model.addModule uri (Lowering.modulePath uri)
    ({ t with model, modules := (ns, id) :: t.modules }, id)

/-- Adds a declaration that no node becomes. -/
def addType (t : Target) (decl : TypeDecl) : Target × TypeId :=
  let (model, id) := t.model.addType decl
  ({ t with model }, id)

/-- Adds the declaration that a node becomes. -/
def addTypeOf (t : Target) (node : NodeId) (decl : TypeDecl) : Target × TypeId :=
  let (t, id) := t.addType decl
  ({ t with types := (node, id) :: t.types }, id)

/-- Changes a declaration. -/
def modifyType (t : Target) (id : TypeId) (f : TypeDecl → TypeDecl) : Target :=
  { t with model := t.model.modifyType id f }

end Target

/-- A step in the construction of a model. A step that fails leaves the model as far as it got. -/
abbrev Build := ExceptT ExportError (StateM Target)

end XsdTypes
