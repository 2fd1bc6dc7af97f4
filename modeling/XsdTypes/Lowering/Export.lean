import XsdTypes.Lowering.Types

/-!
# Exporting namespaces

A namespace becomes a module. All its named types get their declarations before any of them is
lowered, so that types may refer to each other in any order and namespaces may refer to each other
in circles. A namespace that a type refers to is exported when it is met. The global elements become
the members of one more declaration, the type of whole documents.
-/

namespace XsdTypes.Lowering

/-- The settings of an export. -/
structure ExportOptions where
  /-- The name of the type of whole documents. -/
  document : String := "document"
  deriving DecidableEq, Repr, Inhabited

/-- The named types of a namespace with their local names, in order. -/
def namedTypes (g : Graph) (ns : NamespaceId) : List (NodeId × String) :=
  (g.globals ns).filterMap fun d =>
    if d.space = .type ∧ [Tag.complexType, .simpleType].contains (g.nodeAt d.node).tag then
      d.name.map fun name => (d.node, name.localName)
    else none

/-- Gives the named types of a namespace their declarations. -/
def reserve (g : Graph) (owner : ModuleId) (types : List (NodeId × String)) :
    Build (List (NodeId × TypeId)) :=
  types.mapM fun (node, name) => do
    let decl := { TypeDecl.ofSchema owner (some name) .interface with
      comment := (g.nodeAt node).comment }
    let (target, id) := (← get).addTypeOf node decl
    set target
    return (node, id)

/-- Adds the type of whole documents, if there are global elements. -/
def addDocumentType (refer : Refer) (options : ExportOptions) (g : Graph) (ns : NamespaceId)
    (owner : ModuleId) : Build Unit := do
  let elements := (g.globals ns).filter fun d => d.space = .element
  unless elements.isEmpty do
    let members ← elements.mapM fun d => elementMember refer g owner ⟨d, .once⟩
    let decl := { TypeDecl.ofSchema owner (some options.document) .document with members }
    modify fun target => (target.addType decl).1

/-- Exports a namespace, unless that has begun. -/
def exportWith (refer : Refer) (options : ExportOptions) (g : Graph) (ns : NamespaceId) :
    Build ModuleId := do
  let (target, owner) := (← get).moduleFor g ns
  set target
  if target.isExported ns then return owner
  set { target with exported := ns :: target.exported }
  let reserved ← reserve g owner (namedTypes g ns)
  reserved.forM fun (node, id) => lowerType refer g node id owner
  addDocumentType refer options g ns owner
  return owner

/-- The reference to the type that a node defines. A type without a name gets its declaration here;
a named one is exported with its namespace. Each step deeper adds a declaration or begins a
namespace, so `fuel` need only count both. -/
def typeRef (options : ExportOptions) (g : Graph) : Nat → Refer
  | 0, node, _ => throw (.unexported ((g.nodeAt node).name.getD default) (g.location node))
  | fuel + 1, node, owner => do
    match (g.nodeAt node).payload with
    | .builtin primitive => return .primitive primitive
    | _ =>
      match (← get).typeOf? node with
      | some id => return .decl id
      | none =>
        match (g.nodeAt node).name with
        | some name =>
          let ns := (g.scopeAt (g.nodeAt node).scope).ns
          let _ ← exportWith (typeRef options g fuel) options g ns
          match (← get).typeOf? node with
          | some id => return .decl id
          | none => throw (.unexported name (g.location node))
        | none =>
          let (target, id) := (← get).addTypeOf node (TypeDecl.ofSchema owner none .interface)
          set target
          lowerType (typeRef options g fuel) g node id owner
          return .decl id

/-- How deep references between types can go. -/
def depthLimit (g : Graph) : Nat :=
  g.nodes.size + g.namespaces.size + 1

/-- Exports a namespace, and every namespace that it refers to. -/
def exportNamespace (options : ExportOptions) (g : Graph) (ns : NamespaceId) : Build ModuleId :=
  exportWith (typeRef options g (depthLimit g)) options g ns

end XsdTypes.Lowering
