import XsdTypes.Model.Basic
import XsdTypes.Model.Identifier

/-!
# Naming declarations and members

Every named declaration gets an identifier made from its name in the schema, or from another name
given for that one. A name that an earlier declaration of the module has gets a number, and so does
a name that an earlier member of the declaration has. Identifiers depend on the names in the schema
only, so naming twice is naming once.
-/

namespace XsdTypes

/-- A declaration whose identifier has changed. -/
structure Rename where
  /-- The declaration. -/
  id : TypeId
  /-- The identifier before all changes. -/
  old : String
  /-- The identifier now. -/
  new : String
  deriving DecidableEq, Repr

namespace Naming

/-- Records a change; the identifier before the first change of a declaration stays on record. -/
def record (id : TypeId) (old new : String) : List Rename → List Rename
  | [] => [⟨id, old, new⟩]
  | r :: rs => if r.id = id then { r with new } :: rs else r :: record id old new rs

/-- The name from which the identifier of a declaration is made. -/
def baseName (overrides : List (String × String)) (d : TypeDecl) : String :=
  let source := (d.xmlName.or d.name).getD ""
  Identifier.forDeclaration ((overrides.lookup source).getD source)

/-- Gives a declaration an identifier and records the change, if it is one. -/
def renameType (state : Model × List Rename) (id : TypeId) (new : String) : Model × List Rename :=
  let (m, renames) := state
  match (m.typeAt id).name with
  | none => (m, renames)
  | some old =>
    if new = old then (m, renames)
    else (m.modifyType id fun d => { d with name := some new }, record id old new renames)

/-- Names declarations one after the other, with names that are not among those `taken`. -/
def nameTypes (overrides : List (String × String)) :
    List TypeId → List String → Model × List Rename → Model × List Rename
  | [], _, state => state
  | id :: ids, taken, state =>
    let d := state.1.typeAt id
    if d.isAnonymous then nameTypes overrides ids taken state
    else
      let new := Text.fresh "" (baseName overrides d) taken
      nameTypes overrides ids (new :: taken) (renameType state id new)

/-- Names the declarations of a module. -/
def nameModule (overrides : List (String × String)) (state : Model × List Rename)
    (id : ModuleId) : Model × List Rename :=
  nameTypes overrides (state.1.moduleAt id).types [] state

/-- Names the members of a declaration. -/
def nameMembers (d : TypeDecl) : TypeDecl :=
  let wanted := d.members.map fun member => Identifier.forProperty member.xmlName
  let names := Text.freshAll "" wanted []
  { d with members := (d.members.zip names).map fun (member, name) => { member with name } }

/-- Names all declarations and members of a model. -/
def run (overrides : List (String × String)) (state : Model × List Rename) :
    Model × List Rename :=
  let (m, renames) := state.1.moduleIds.foldl (nameModule overrides) state
  ({ m with types := m.types.map nameMembers }, renames)

/-- The changes on record, by declaration. -/
def table (renames : List Rename) : List Rename :=
  renames.mergeSort fun a b => a.id ≤ b.id

end Naming

end XsdTypes
