import XsdTypes.Name.QName
import XsdTypes.Schema.Occurrence

/-!
# Scopes

A scope lists the declarations of a namespace, a type, a group or an element in document order.
Each declaration belongs to a symbol space, and a name may stand once in every symbol space of a
scope, unless repeats of it accumulate there. An index holds the places of each name, so that a
name is found without going through the list.
-/

namespace XsdTypes

/-- The number of a node of a schema graph. -/
abbrev NodeId := Nat

/-- The number of a scope of a schema graph. -/
abbrev ScopeId := Nat

/-- The number of a namespace of a schema graph. -/
abbrev NamespaceId := Nat

/-- The number of a document of a schema graph. -/
abbrev DocumentId := Nat

/-- The symbol spaces: names of different spaces never collide. -/
inductive SymbolSpace where
  | element
  | attr
  /-- Complex and simple types share one space. -/
  | type
  | group
  | attrGroup
  /-- A reference to a group within a content model. -/
  | groupRef
  /-- A reference to an attribute group within a type. -/
  | attrGroupRef
  deriving DecidableEq, Repr, Inhabited

/-- The name of a symbol space in messages. -/
def SymbolSpace.text : SymbolSpace → String
  | .element => "element"
  | .attr => "attribute"
  | .type => "type"
  | .group => "group"
  | .attrGroup => "attributeGroup"
  | .groupRef => "group reference"
  | .attrGroupRef => "attributeGroup reference"

/-- A name in a symbol space. -/
abbrev SchemaSymbol := SymbolSpace × QName

/-- What a repeated declaration of a name does. -/
inductive Repeats where
  /-- It stands beside the earlier ones. -/
  | accumulate
  /-- It is refused. -/
  | reject
  deriving DecidableEq, Repr

/-- For every symbol space, what repeats do in the root scope of a namespace and in other
scopes. -/
structure RepeatPolicy where
  /-- The rule for the root scopes. -/
  root : SymbolSpace → Repeats
  /-- The rule for all other scopes. -/
  inner : SymbolSpace → Repeats

namespace RepeatPolicy

/-- The rule for a symbol space. -/
def rule (p : RepeatPolicy) (space : SymbolSpace) (atRoot : Bool) : Repeats :=
  if atRoot then p.root space else p.inner space

/-- The policy with one rule changed. -/
def set (p : RepeatPolicy) (space : SymbolSpace) (atRoot : Bool) (r : Repeats) : RepeatPolicy :=
  if atRoot then { p with root := fun s => if s = space then r else p.root s }
  else { p with inner := fun s => if s = space then r else p.inner s }

/-- Content models may name an element or refer to a group more than once; everything else is
declared once. -/
def standard : RepeatPolicy where
  root _ := .reject
  inner
    | .element | .groupRef | .attrGroupRef => .accumulate
    | _ => .reject

end RepeatPolicy

/-- A declaration in a scope; one without a name cannot be looked up. -/
structure Declaration where
  /-- The name. -/
  name : Option QName
  /-- The symbol space of the name. -/
  space : SymbolSpace
  /-- The declared node. -/
  node : NodeId
  /-- How often the declared thing may occur. -/
  occurs : Occurrence
  deriving DecidableEq, Repr, Inhabited

/-- The name of a declaration in its symbol space. -/
def Declaration.symbol? (d : Declaration) : Option SchemaSymbol :=
  d.name.map fun name => (d.space, name)

/-- The places of each name in a list of declarations. -/
abbrev SymbolIndex := List (SchemaSymbol × List Nat)

namespace SymbolIndex

/-- The places of a name, in ascending order. -/
def places (index : SymbolIndex) (s : SchemaSymbol) : List Nat :=
  (index.lookup s).getD []

/-- The index with one more place for a name. -/
def add (s : SchemaSymbol) (place : Nat) : SymbolIndex → SymbolIndex
  | [] => [(s, [place])]
  | (t, places) :: index =>
    if t = s then (t, places ++ [place]) :: index else (t, places) :: add s place index

end SymbolIndex

/-- A table of declarations. -/
structure Scope where
  /-- The scope around it; the root scope of a namespace has none. -/
  parent : Option ScopeId
  /-- The namespace it belongs to. -/
  ns : NamespaceId
  /-- The declarations in document order. -/
  entries : List Declaration := []
  /-- The places of the named declarations. -/
  index : SymbolIndex := []
  deriving Repr, Inhabited

/-- Why a declaration is refused. -/
structure Refusal where
  /-- The first declaration of its name. -/
  existing : Declaration
  /-- The scope as the refusal leaves it. -/
  scope : Scope
  deriving Repr

/-- Declarations in which repeats of a name are folded into its first place. -/
structure Folding where
  /-- The declarations in document order, each name once. -/
  merged : List Declaration := []
  /-- The place of each name. -/
  places : List (SchemaSymbol × Nat) := []

/-- Adds a declaration. A name that has been met has the occurrences added up in its place. -/
def Folding.add (f : Folding) (d : Declaration) : Folding :=
  match d.symbol? with
  | none => { f with merged := f.merged ++ [d] }
  | some symbol =>
    match f.places.lookup symbol with
    | some place =>
      { f with
        merged := f.merged.modify place fun first =>
          { first with occurs := first.occurs.plus d.occurs } }
    | none =>
      { merged := f.merged ++ [d]
        places := (symbol, f.merged.length) :: f.places }

namespace Scope

/-- The scope with a declaration at its end. -/
def append (s : Scope) (d : Declaration) : Scope :=
  { s with
    entries := s.entries ++ [d]
    index :=
      match d.symbol? with
      | some symbol => s.index.add symbol s.entries.length
      | none => s.index }

/-- The first declaration of a name in this scope. -/
def find? (s : Scope) (symbol : SchemaSymbol) : Option Declaration :=
  (s.index.places symbol).head?.bind fun place => s.entries[place]?

/-- All declarations of a name in this scope, in document order. -/
def findAll (s : Scope) (symbol : SchemaSymbol) : List Declaration :=
  (s.index.places symbol).filterMap fun place => s.entries[place]?

/-- Adds a declaration. If its name is taken and repeats are refused, the answer is the first
declaration of the name. -/
def insert (s : Scope) (d : Declaration) (repeats : Repeats) : Except Refusal Scope :=
  match repeats, d.symbol?.bind s.find? with
  | .reject, some existing => .error ⟨existing, s⟩
  | _, _ => .ok (s.append d)

/-- Puts a declaration in the place of the first one of its name, or at the end if there is
none. -/
def replace (s : Scope) (d : Declaration) : Scope :=
  match d.symbol?.bind fun symbol => (s.index.places symbol).head? with
  | some place => { s with entries := s.entries.set place d }
  | none => s.append d

/-- The declarations of a symbol space that have no name. -/
def anonymous (s : Scope) (space : SymbolSpace) : List Declaration :=
  s.entries.filter fun d => d.space = space && d.name.isNone

/-- The declarations with repeats of a name folded into its first place. -/
def members (s : Scope) : List Declaration :=
  (s.entries.foldl Folding.add {}).merged

end Scope

end XsdTypes
