import XsdTypes.Lowering.Expansion
import XsdTypes.Lowering.Target

/-!
# Members

The elements and attributes in the content of a type become its members. A name that occurs more
than once becomes one member: an element then is an array, and is required if one of its occurrences
is.

A type within another is lowered when it is met, so what is said here holds for any way of referring
to a type.
-/

namespace XsdTypes.Lowering

/-- A way to refer to the type that a node defines, from a module. -/
abbrev Refer := NodeId → ModuleId → Build TypeRef

/-- What an element says of its type. -/
def elementAscription? (node : Node) : Option Ascription :=
  match node.payload with
  | .element a => some a
  | _ => none

/-- What an attribute says of its type. -/
def attributeAscription? (node : Node) : Option Ascription :=
  match node.payload with
  | .attr a _ => some a
  | _ => none

/-- The node of a type and the documentation of an element or an attribute. A reference has the type
of the declaration it refers to, and its documentation if it has none itself. -/
def typeAndComment (ascription? : Node → Option Ascription) (g : Graph) (id : NodeId) :
    Option NodeId × Option String :=
  let node := g.nodeAt id
  match ascription? node with
  | none => (none, node.comment)
  | some a =>
    match a.target with
    | none => (a.typeNode, node.comment)
    | some target =>
      ((ascription? (g.nodeAt target)).bind Ascription.typeNode,
        node.comment.or (g.nodeAt target).comment)

/-- The local name of a declaration. -/
def localName (d : Declaration) : String :=
  (d.name.map QName.localName).getD ""

/-- The type that a node means, or a primitive type if there is none. -/
def referOr (refer : Refer) (fallback : Primitive) (node : Option NodeId) (owner : ModuleId) :
    Build TypeRef :=
  match node with
  | some node => refer node owner
  | none => return .primitive fallback

/-- The member that an element becomes. -/
def elementMember (refer : Refer) (g : Graph) (owner : ModuleId) (c : Contribution) :
    Build Member := do
  let (typeNode, comment) := typeAndComment elementAscription? g c.declaration.node
  let type ← referOr refer .any typeNode owner
  let type := if c.occurs.max.isMany then .array type else type
  return { Member.ofSchema (localName c.declaration) .element type with
    optional := c.occurs.min.val = 0
    comment }

/-- The member that an attribute becomes. -/
def attributeMember (refer : Refer) (g : Graph) (owner : ModuleId) (c : Contribution) :
    Build Member := do
  let (typeNode, comment) := typeAndComment attributeAscription? g c.declaration.node
  let type ← referOr refer .string typeNode owner
  return { Member.ofSchema (localName c.declaration) .attr type with
    optional := c.occurs.min.val = 0
    comment }

/-- The member with another occurrence of its name counted in. -/
def fold (m other : Member) : Member :=
  { m with
    type := if m.kind = .element ∧ !m.type.isArray then .array m.type else m.type
    optional := m.optional && other.optional }

/-- Adds a member to the members before it. -/
def pushMember (new : Member) : List Member → List Member
  | [] => [new]
  | m :: ms =>
    if m.kind = new.kind ∧ m.xmlName = new.xmlName then fold m new :: ms
    else m :: pushMember new ms

/-- The members that content becomes, after those that are there already. -/
def members (refer : Refer) (g : Graph) (owner : ModuleId) (content : List Contribution)
    (before : List Member) : Build (List Member) :=
  content.foldlM
    (fun members c => do
      let member ←
        if c.declaration.space = .attr then attributeMember refer g owner c
        else elementMember refer g owner c
      return pushMember member members)
    before

end XsdTypes.Lowering
