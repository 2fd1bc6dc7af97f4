import XsdTypes.Lowering.Members

/-!
# Lowering types

A complex type becomes an interface with a base and members, a simple type an alias or a union. The
type that a redefinition redefines has the same name and so would be its own base; it is then left
out.
-/

namespace XsdTypes.Lowering

/-- The first child with one of the given tags. -/
def childWith? (g : Graph) (id : NodeId) (tags : List Tag) : Option NodeId :=
  (g.nodeAt id).children.find? fun child => tags.contains (g.nodeAt child).tag

/-- The derivation within a complex type, with the content tag around it. -/
def derivationOf? (g : Graph) (id : NodeId) : Option (NodeId × NodeId) :=
  (g.nodeAt id).children.findSome? fun content =>
    if [Tag.simpleContent, .complexContent].contains (g.nodeAt content).tag then
      (childWith? g content [.extension, .restriction]).map fun derivation => (content, derivation)
    else none

/-- Whether a node is a built-in type without a structure of its own. -/
def isAnyType (g : Graph) (id : NodeId) : Bool :=
  (g.nodeAt id).payload = .builtin .any

/-- The type of one of several strings. -/
def literalUnion (owner : ModuleId) (values : List String) : Build TypeRef := do
  let decl := { TypeDecl.ofSchema owner none .union with variants := values.map .literal }
  let (target, id) := (← get).addType decl
  set target
  return .decl id

/-- The base that a complex type extends, and the member for its text. -/
def baseAndContent (refer : Refer) (g : Graph) (id : NodeId) (owner : ModuleId) :
    Build (Option TypeRef × List Member) := do
  match derivationOf? g id with
  | none => return (none, [])
  | some (content, derivation) =>
    match (g.nodeAt derivation).payload with
    | .derivation d =>
      let baseNode := d.baseNode.filter (· ≠ id)
      if (g.nodeAt content).tag = .simpleContent then
        match baseNode.filter fun base => (g.nodeAt base).tag = .complexType with
        | some base => return (some (← refer base owner), [])
        | none =>
          let type ←
            if d.enumerations.isEmpty then referOr refer .string baseNode owner
            else literalUnion owner d.enumerations
          return (none, [Member.ofSchema "content" .content type])
      else
        match baseNode.filter fun base => d.isExtension && !isAnyType g base with
        | some base => return (some (← refer base owner), [])
        | none => return (none, [])
    | _ => return (none, [])

/-- Whether a node is a complex type with mixed content. -/
def isMixed (g : Graph) (id : NodeId) : Bool :=
  match (g.nodeAt id).payload with
  | .complexType mixed _ => mixed
  | _ => false

/-- The members with one for the text of mixed content, unless there is one already. -/
def withMixedText (isMixed : Bool) (members : List Member) : List Member :=
  if isMixed && !members.any fun m => m.kind = .content then
    members ++
      [{ Member.ofSchema "content" .content (.primitive .string) with optional := true }]
  else members

/-- Lowers a complex type into its declaration. -/
def lowerComplex (refer : Refer) (g : Graph) (id : NodeId) (type : TypeId) (owner : ModuleId) :
    Build Unit := do
  let (base, text) ← baseAndContent refer g id owner
  let content ← members refer g owner (contentOf g id) text
  modify fun target => target.modifyType type fun d =>
    { d with shape := .interface, base, members := withMixedText (isMixed g id) content }

/-- What a simple type becomes. -/
structure SimpleBody where
  /-- An alias or a union. -/
  shape : Shape
  /-- The variants of a union. -/
  variants : List TypeRef := []
  /-- The target of an alias. -/
  target : Option TypeRef := none

/-- What the simple type with the given content becomes. -/
def simpleBody (refer : Refer) (id : NodeId) (owner : ModuleId) (content : Option Payload) :
    Build SimpleBody := do
  match content with
  | some (.derivation d) =>
    if d.enumerations.isEmpty then
      let target ← referOr refer .any (d.baseNode.filter (· ≠ id)) owner
      return { shape := .synonym, target := some target }
    else return { shape := .union, variants := d.enumerations.map .literal }
  | some (.list _ itemNode) =>
    let item ← referOr refer .string itemNode owner
    return { shape := .synonym, target := some (.array item) }
  | some (.union _ (first :: rest)) =>
    let variants ← (first :: rest).mapM fun node => refer node owner
    return { shape := .union, variants }
  | _ => return { shape := .synonym, target := some (.primitive .any) }

/-- Lowers a simple type into its declaration. -/
def lowerSimple (refer : Refer) (g : Graph) (id : NodeId) (type : TypeId) (owner : ModuleId) :
    Build Unit := do
  let content := (childWith? g id [.restriction, .list, .union]).map fun child =>
    (g.nodeAt child).payload
  let body ← simpleBody refer id owner content
  modify fun target => target.modifyType type fun d =>
    { d with shape := body.shape, variants := body.variants, target := body.target }

/-- Lowers the type that a node defines into its declaration. -/
def lowerType (refer : Refer) (g : Graph) (id : NodeId) (type : TypeId) (owner : ModuleId) :
    Build Unit :=
  match (g.nodeAt id).tag with
  | .complexType => lowerComplex refer g id type owner
  | .simpleType => lowerSimple refer g id type owner
  | _ => return ()

end XsdTypes.Lowering
