import XsdTypes.Model.Decl
import XsdTypes.Text.Basic
import XsdTypes.Text.Fresh

/-!
# Models

A model is a list of modules, one for each namespace, and a list of declarations. A module lists its
named declarations; a declaration without a name belongs to a module and is listed nowhere. Modules
and declarations are referred to by their numbers.
-/

namespace XsdTypes

/-- A number that means nothing in a model. -/
inductive ModelError where
  | unknownType (id : TypeId)
  | unknownModule (id : ModuleId)
  deriving DecidableEq, Repr

/-- What the report of an unknown number says. -/
def ModelError.message : ModelError → String
  | .unknownType id => s!"Type #{id} is not part of this model"
  | .unknownModule id => s!"Module #{id} is not part of this model"

/-- A module that another one refers to. -/
structure ModuleImport where
  /-- The module referred to. -/
  target : ModuleId
  /-- The name it has where it is referred to. -/
  shortName : String
  deriving DecidableEq, Repr, Inhabited

/-- The declarations of a namespace. -/
structure Module where
  /-- The number of the module that is meant where this one is listed. In a model that was built by
  adding modules it is the module's own number. -/
  id : ModuleId
  /-- The URI of the namespace. -/
  uri : String
  /-- The path of the module, without an extension. -/
  path : String
  /-- The name that other modules have for it by default. -/
  shortName : String
  /-- The named declarations, in order. -/
  types : List TypeId := []
  /-- The modules it refers to. -/
  imports : List ModuleImport := []
  deriving DecidableEq, Repr, Inhabited

/-- The types that a schema becomes. -/
structure Model where
  /-- The modules. -/
  modules : Array Module := #[]
  /-- The declarations. -/
  types : Array TypeDecl := #[]
  deriving Repr, Inhabited

namespace Model

/-- The module with a number. -/
def moduleAt (m : Model) (id : ModuleId) : Module := m.modules.getD id default

/-- The declaration with a number. -/
def typeAt (m : Model) (id : TypeId) : TypeDecl := m.types.getD id default

/-- The module with a number, if there is one. -/
def moduleOf (m : Model) (id : ModuleId) : Except ModelError Module :=
  match m.modules[id]? with
  | some info => .ok info
  | none => .error (.unknownModule id)

/-- The declaration with a number, if there is one. -/
def typeOf (m : Model) (id : TypeId) : Except ModelError TypeDecl :=
  match m.types[id]? with
  | some decl => .ok decl
  | none => .error (.unknownType id)

/-- Changes a module. -/
def modifyModule (m : Model) (id : ModuleId) (f : Module → Module) : Model :=
  { m with modules := m.modules.modify id f }

/-- Changes a declaration. -/
def modifyType (m : Model) (id : TypeId) (f : TypeDecl → TypeDecl) : Model :=
  { m with types := m.types.modify id f }

/-- The numbers that the modules have been given, in order. -/
def moduleIds (m : Model) : List ModuleId :=
  m.modules.toList.map Module.id

/-- The paths of all modules. -/
def paths (m : Model) : List String :=
  m.modules.toList.map Module.path

/-- Adds a module for a namespace. A path that is taken gets a number. -/
def addModule (m : Model) (uri path : String) : Model × ModuleId :=
  let path := Text.fresh "_" path m.paths
  let id := m.modules.size
  ({ m with modules := m.modules.push { id, uri, path, shortName := Text.afterLast '/' path } }, id)

/-- The first module of a namespace. -/
def findModule? (m : Model) (uri : String) : Option ModuleId :=
  (m.modules.find? fun info => info.uri = uri).map Module.id

/-- Adds a declaration; one with a name is listed in its module. -/
def addType (m : Model) (decl : TypeDecl) : Model × TypeId :=
  let id := m.types.size
  let m :=
    if decl.isAnonymous then m
    else m.modifyModule decl.owner fun info => { info with types := info.types ++ [id] }
  ({ m with types := m.types.push decl }, id)

/-- The first declaration of a module with a name in the schema. -/
def findType? (m : Model) (owner : ModuleId) (xmlName : String) : Option TypeId :=
  (m.moduleAt owner).types.find? fun id => (m.typeAt id).xmlName = some xmlName

end Model

/-- How many parts two lists have in common at their start. -/
def commonLength : List String → List String → Nat
  | a :: as, b :: bs => if a = b then commonLength as bs + 1 else 0
  | _, _ => 0

/-- The way from the module at one path to the module at another: up to the nearest directory that
holds both, and down from there. -/
def relativePath (start target : String) : String :=
  let dirs := (Text.splitAt (· == '/') start).dropLast
  let parts := Text.splitAt (· == '/') target
  let common := min (commonLength dirs parts) (parts.length - 1)
  let ups := dirs.length - common
  let rest := Text.join "/" (parts.drop common)
  if ups = 0 then "./" ++ rest else Text.times ups "../" ++ rest

end XsdTypes
