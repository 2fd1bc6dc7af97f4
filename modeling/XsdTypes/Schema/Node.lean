import XsdTypes.Model.Primitive
import XsdTypes.Schema.Scope
import XsdTypes.Schema.Tag
import XsdTypes.Source.Location

/-!
# Nodes

Every tag of a schema document becomes a node. What a node holds beyond its place in the document
depends on its tag, and is its payload.
-/

namespace XsdTypes

/-- What `element` and `attribute` declarations say of their type, by name or by reference to a
global declaration, and what these names turn out to mean. -/
structure Ascription where
  /-- Whether the declaration is global. -/
  isGlobal : Bool := false
  /-- The name of the type. -/
  typeName : Option QName := none
  /-- The name of the declaration referred to. -/
  refName : Option QName := none
  /-- The type that was found. -/
  typeNode : Option NodeId := none
  /-- The declaration that was found. -/
  target : Option NodeId := none
  deriving DecidableEq, Repr, Inhabited

/-- What `extension` and `restriction` hold. -/
structure Derivation where
  /-- Whether the base is extended, not restricted. -/
  isExtension : Bool := false
  /-- The name of the base type. -/
  base : Option QName := none
  /-- The base type that was found. -/
  baseNode : Option NodeId := none
  /-- The values listed by the enumerations within, in order. -/
  enumerations : List String := []
  deriving DecidableEq, Repr, Inhabited

/-- What a node holds, by the kind of its tag. -/
inductive Payload where
  /-- Nothing is known yet. -/
  | unset
  /-- The tag holds nothing of interest. -/
  | plain
  | schema
  /-- A reference to another document. -/
  | documentRef (ns location : Option String)
  | documentation (text : String)
  | element (ascription : Ascription)
  /-- A prohibited attribute is declared nowhere. -/
  | attr (ascription : Ascription) (prohibited : Bool)
  | complexType (mixed isAbstract : Bool)
  | simpleType
  /-- The occurrences of a content model within the type or group around it. -/
  | particle (occurs : Occurrence)
  /-- A definition of a group, or a reference to one. -/
  | group (refName : Option QName) (target : Option NodeId)
  | derivation (d : Derivation)
  | enumeration (value : String)
  | list (itemType : Option QName) (itemNode : Option NodeId)
  | union (memberTypes : List QName) (memberNodes : List NodeId)
  | builtin (primitive : Primitive)
  deriving DecidableEq, Repr, Inhabited

/-- What a node of a tag holds before its attributes are looked at. -/
def Tag.payload : Tag → Payload
  | .schema => .schema
  | .documentation => .documentation ""
  | .element => .element {}
  | .attr => .attr {} false
  | .complexType => .complexType false false
  | .simpleType => .simpleType
  | .sequence | .choice | .all => .particle .once
  | .group | .attrGroup => .group none none
  | .extension => .derivation { isExtension := true }
  | .restriction => .derivation {}
  | .list => .list none none
  | .union => .union [] []
  | .builtin => .unset
  | _ => .plain

/-- A tag of a document, or something built in. -/
structure Node where
  /-- The kind of tag. -/
  tag : Tag
  /-- What the node holds. -/
  payload : Payload
  /-- The node of the tag around it. -/
  parent : Option NodeId := none
  /-- The nodes of the tags directly within, in document order. -/
  children : List NodeId := []
  /-- The scope in which the tag stands. -/
  scope : ScopeId
  /-- The scope that the tag opens for its content. -/
  ownScope : Option ScopeId := none
  /-- The document that holds the tag; what is built in has none. -/
  document : Option DocumentId := none
  /-- Where the tag stands. -/
  position : Position
  /-- The name that the node declares. -/
  name : Option QName := none
  /-- The attributes as written, without those that bind prefixes. -/
  attributes : List (String × String) := []
  /-- The documentation of the node. -/
  comment : Option String := none
  /-- Whether the references of the node have been bound. -/
  resolved : Bool := false
  deriving Repr, Inhabited

namespace Node

/-- A node for a tag, with nothing but its place. -/
def ofTag (tag : Tag) (scope : ScopeId) (position : Position) : Node :=
  { tag, payload := tag.payload, scope, position }

/-- The value of an attribute as written. -/
def attribute? (n : Node) (key : String) : Option String :=
  n.attributes.lookup key

/-- Adds a text to the documentation, on lines of its own. -/
def addComment (n : Node) (text : String) : Node :=
  { n with
    comment :=
      match n.comment with
      | some earlier => some (earlier ++ "\n" ++ text)
      | none => some text }

end Node

end XsdTypes
