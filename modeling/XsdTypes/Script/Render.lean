import XsdTypes.Lowering.Target
import XsdTypes.Script.Comment
import XsdTypes.Text.Quoted

/-!
# Writing modules

A module is written as its imports and its named declarations. A reference to a declaration of the
same module is its name, one to a declaration of another module has the name of the import before
it, and a declaration without a name is written out where it is referred to.
-/

namespace XsdTypes

/-- How a named declaration is referred to. -/
inductive Reference where
  /-- By its name alone. -/
  | bare (name : String)
  /-- By its name after the name of the module that is imported. -/
  | qualified (qualifier name : String)
  deriving DecidableEq, Repr

/-- The reference in writing. -/
def Reference.text : Reference → String
  | .bare name => name
  | .qualified qualifier name => qualifier ++ "." ++ name

namespace Script

/-- How a module refers to the declaration with a given name and owner. -/
def reference (m : Model) (here : ModuleId) (owner : ModuleId) (name : String) :
    Except ExportError Reference :=
  if owner = here then .ok (.bare name)
  else
    match (m.moduleAt here).imports.find? fun i => i.target = owner with
    | some i => .ok (.qualified i.shortName name)
    | none => .error (.missingImport (m.moduleAt here).path (m.moduleAt owner).path)

/-- Whether an array of a type is written with brackets alone. -/
def isSimple (m : Model) : TypeRef → Bool
  | .primitive _ | .literal _ => true
  | .array inner => isSimple m inner
  | .decl id =>
    match m.types[id]? with
    | some d => !d.isAnonymous
    | none => false

/-- A way to write out a declaration without a name at a given indentation. -/
abbrev Inline := Nat → TypeId → TypeDecl → Except ExportError String

/-- A type in writing; declarations without names are written by `inline`. -/
def renderRef (inline : Inline) (m : Model) (here : ModuleId) (indent : Nat) :
    TypeRef → Except ExportError String
  | .primitive p => .ok p.keyword
  | .literal value => .ok (Text.quoted value)
  | .array inner => do
    let element ← renderRef inline m here indent inner
    return if isSimple m inner then element ++ "[]" else "Array<" ++ element ++ ">"
  | .decl id => do
    let d ← (m.typeOf id).mapError .model
    match d.name with
    | some name => return (← reference m here d.owner name).text
    | none => inline indent id d

/-- A member in writing, with its comment. -/
def renderMember (inline : Inline) (m : Model) (here : ModuleId) (indent : Nat) (member : Member) :
    Except ExportError String := do
  let type ← renderRef inline m here indent member.type
  return comment indent member.comment ++ Text.times indent "\t" ++ member.name ++
    (if member.optional then "?" else "") ++ ": " ++ type ++ ";\n"

/-- Members in writing, between braces. -/
def renderMembers (inline : Inline) (m : Model) (here : ModuleId) (indent : Nat)
    (members : List Member) : Except ExportError String :=
  if members.isEmpty then .ok "\x7b\x7d"
  else do
    let lines ← members.mapM (renderMember inline m here (indent + 1))
    return "\x7b\n" ++ String.join lines ++ Text.times indent "\t" ++ "\x7d"

/-- What a declaration stands for, in writing. -/
def renderBody (inline : Inline) (m : Model) (here : ModuleId) (indent : Nat) (d : TypeDecl) :
    Except ExportError String :=
  match d.shape with
  | .synonym =>
    match d.target with
    | some target => renderRef inline m here indent target
    | none => .ok Primitive.any.keyword
  | .union =>
    if d.variants.isEmpty then .ok "never"
    else return Text.join " | " (← d.variants.mapM (renderRef inline m here indent))
  | .interface | .document => do
    let members ← renderMembers inline m here indent d.members
    match d.base with
    | some base => return (← renderRef inline m here indent base) ++ " & " ++ members
    | none => return members

/-- Writes out a declaration without a name, in which at most `fuel` others stand within each
other. Where more stand within each other than there are, one stands within itself, and there is no
end to it. -/
def renderInline (m : Model) (here : ModuleId) : Nat → Inline
  | 0, _, id, _ => .error (.endless id)
  | fuel + 1, indent, _, d => renderBody (renderInline m here fuel) m here indent d

/-- A named declaration in writing, with its comment. -/
def renderDecl (m : Model) (here : ModuleId) (d : TypeDecl) : Except ExportError String := do
  let inline := renderInline m here (m.types.size + 1)
  let name := d.name.getD ""
  let body ←
    match d.shape with
    | .interface | .document =>
      let keyword := if d.shape = .document then "class " else "interface "
      let base ←
        match d.base with
        | some base => (renderRef inline m here 0 base).map (" extends " ++ ·)
        | none => .ok ""
      let members ← renderMembers inline m here 0 d.members
      pure (keyword ++ name ++ base ++ " " ++ members ++ "\n")
    | .synonym | .union =>
      (renderBody inline m here 0 d).map fun body => "type " ++ name ++ " = " ++ body ++ ";\n"
  return comment 0 d.comment ++ "export " ++ body

/-- An import in writing. -/
def renderImport (m : Model) (info : Module) (i : ModuleImport) : String :=
  "import * as " ++ i.shortName ++ " from \"" ++
    relativePath info.path (m.moduleAt i.target).path ++ "\";\n"

/-- A module in writing: its imports, and its named declarations with empty lines between. -/
def renderModule (m : Model) (id : ModuleId) : Except ExportError String := do
  let info ← (m.moduleOf id).mapError .model
  let decls ← info.types.mapM fun type => do
    renderDecl m id (← (m.typeOf type).mapError .model)
  let imports := info.imports.map (renderImport m info)
  return String.join imports ++ (if imports.isEmpty ∨ decls.isEmpty then "" else "\n") ++
    Text.join "\n" decls

/-- The extension of the files that hold modules. -/
def extension : String := ".d.ts"

/-- A file and its text. -/
structure File where
  /-- The path. -/
  path : String
  /-- The text. -/
  text : String
  deriving DecidableEq, Repr

/-- All modules with named declarations in writing, in order. -/
def renderAll (m : Model) : Except ExportError (List File) :=
  (m.modules.toList.filter fun info => !info.types.isEmpty).mapM fun info => do
    return ⟨info.path ++ extension, ← renderModule m info.id⟩

end Script

end XsdTypes
