import XsdTypes.Model.Identifier
import XsdTypes.Model.Walk

/-!
# Imports between modules

A module imports every other module that owns a declaration it refers to. Imports are added first
and finished later, when declarations have got their identifiers: then those that are no longer
needed are dropped, the rest is put in the order of the paths, and every import gets a name that no
declaration of the module and no other import has.
-/

namespace XsdTypes.Imports

/-- The modules that a module does not import yet, although it depends on them. -/
def missing (m : Model) (id : ModuleId) : List ModuleId :=
  let imported := (m.moduleAt id).imports.map ModuleImport.target
  (m.dependencies id).filter fun target => !imported.contains target

/-- Adds the imports that a module needs. -/
def addTo (m : Model) (id : ModuleId) : Model :=
  let new := (missing m id).map fun target => ModuleImport.mk target (m.moduleAt target).shortName
  m.modifyModule id fun info => { info with imports := info.imports ++ new }

/-- Adds all imports that are needed, and lists them by importing module, in ascending order. -/
def add (m : Model) : Model × List (ModuleId × List ModuleId) :=
  let (m, added) := m.moduleIds.foldl
    (fun (m, added) id =>
      let new := missing m id
      (addTo m id, if new.isEmpty then added else added ++ [(id, new)]))
    (m, [])
  (m, added.mergeSort fun a b => a.1 ≤ b.1)

/-- The imports of a module that are needed, in the order of their paths. -/
def needed (m : Model) (id : ModuleId) : List ModuleImport :=
  let used := m.dependencies id
  ((m.moduleAt id).imports.filter fun i => used.contains i.target).mergeSort
    fun a b => (m.moduleAt a.target).path ≤ (m.moduleAt b.target).path

/-- The identifiers of the declarations of a module. -/
def localNames (m : Model) (id : ModuleId) : List String :=
  (m.moduleAt id).types.filterMap fun type => (m.typeAt type).name

/-- Drops, orders and names the imports of a module. -/
def finishModule (m : Model) (id : ModuleId) : Model :=
  let imports := needed m id
  let bases := imports.map fun i => Identifier.forDeclaration (m.moduleAt i.target).shortName
  let aliases := Text.freshAll "" bases (localNames m id)
  m.modifyModule id fun info =>
    { info with
      imports := (imports.zip aliases).map fun (i, name) => { i with shortName := name } }

/-- Finishes the imports of all modules. -/
def finish (m : Model) : Model :=
  m.moduleIds.foldl finishModule m

end XsdTypes.Imports
