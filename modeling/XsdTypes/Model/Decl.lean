import XsdTypes.Model.Primitive

/-!
# Type declarations

The types that a schema becomes: references to types, members of structured types, and declarations.
A declaration without a name is written where it is used.
-/

namespace XsdTypes

/-- The number of a declaration in a model. -/
abbrev TypeId := Nat

/-- The number of a module in a model. -/
abbrev ModuleId := Nat

/-- A reference to a type. -/
inductive TypeRef where
  /-- A primitive type. -/
  | primitive (p : Primitive)
  /-- A declaration, named or not. -/
  | decl (id : TypeId)
  /-- The type of one string. -/
  | literal (value : String)
  /-- Any number of values of a type. -/
  | array (inner : TypeRef)
  deriving DecidableEq, Repr, Inhabited

namespace TypeRef

/-- The type without the arrays around it. -/
def element : TypeRef → TypeRef
  | .array inner => inner.element
  | ref => ref

/-- Whether the type is an array. -/
def isArray : TypeRef → Bool
  | .array _ => true
  | _ => false

/-- The declaration that the type refers to, perhaps within arrays. -/
def decl? (ref : TypeRef) : Option TypeId :=
  match ref.element with
  | .decl id => some id
  | _ => none

end TypeRef

/-- The shapes of declarations. -/
inductive Shape where
  /-- The type of whole documents. -/
  | document
  /-- A type with members. -/
  | interface
  /-- Another name for a type. -/
  | synonym
  /-- One of several types. -/
  | union
  deriving DecidableEq, Repr, Inhabited

/-- What a member is in the schema. -/
inductive MemberKind where
  | element
  | attr
  /-- The text of a type with simple or mixed content. -/
  | content
  deriving DecidableEq, Repr, Inhabited

/-- A member of a structured type. -/
structure Member where
  /-- The identifier. -/
  name : String
  /-- The name in the schema. -/
  xmlName : String
  /-- What it is in the schema. -/
  kind : MemberKind
  /-- Its type. -/
  type : TypeRef
  /-- Whether it may be absent. -/
  optional : Bool := false
  /-- Its documentation. -/
  comment : Option String := none
  deriving DecidableEq, Repr, Inhabited

/-- A member whose identifier is its name in the schema. -/
def Member.ofSchema (xmlName : String) (kind : MemberKind) (type : TypeRef) : Member :=
  { name := xmlName, xmlName, kind, type }

/-- A declaration of a type. -/
structure TypeDecl where
  /-- The module it belongs to. -/
  owner : ModuleId
  /-- The identifier, if it has one. -/
  name : Option String
  /-- The name in the schema. -/
  xmlName : Option String
  /-- The shape. -/
  shape : Shape
  /-- The type that a structured type extends. -/
  base : Option TypeRef := none
  /-- The members of a structured type, in the order of the schema. -/
  members : List Member := []
  /-- The types of which a union is one. -/
  variants : List TypeRef := []
  /-- The type that a synonym means. -/
  target : Option TypeRef := none
  /-- The documentation. -/
  comment : Option String := none
  deriving DecidableEq, Repr, Inhabited

namespace TypeDecl

/-- A declaration with nothing in it, whose identifier is its name in the schema. -/
def ofSchema (owner : ModuleId) (name : Option String) (shape : Shape) : TypeDecl :=
  { owner, name, xmlName := name, shape }

/-- Whether the declaration is written where it is used. -/
def isAnonymous (d : TypeDecl) : Bool :=
  d.name.isNone

/-- The member with a name in the schema. -/
def member? (d : TypeDecl) (xmlName : String) : Option Member :=
  d.members.find? fun m => m.xmlName = xmlName

/-- All types that the declaration refers to, in order. -/
def refs (d : TypeDecl) : List TypeRef :=
  d.base.toList ++ d.members.map Member.type ++ d.variants ++ d.target.toList

/-- The strings among the variants. -/
def literals (d : TypeDecl) : List String :=
  d.variants.filterMap fun
    | .literal value => some value
    | _ => none

end TypeDecl

end XsdTypes
