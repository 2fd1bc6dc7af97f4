import XsdTypes.Place.Resolve
import XsdTypes.Schema.Graph

/-!
# What a tag does when it opens

When a tag opens, its attributes decide what its node holds and what happens to the graph. Both are
worked out here as a plan, from what is known where the tag stands and without the graph itself: the
payload of the node, and either the effect of the tag or the reason why it is refused. A refused
tag still has a payload, which is its first one unless the attributes that fill it were read before
the fault was met.

The `schema` tag is not among them, because it makes the document and the namespace that all others
need.
-/

namespace XsdTypes

/-- A document that is asked for. -/
structure Request where
  /-- Where the document is. -/
  url : String
  /-- How it is reached. -/
  route : Route
  /-- The imported namespace, or the namespace of the including document, or the one for an entry
  document that names none. -/
  ns : Option String := none
  /-- The tag that asks for it. -/
  origin : Option Location := none
  deriving DecidableEq, Repr

/-- The request that loading starts with. -/
def Request.entry (url : String) (ns : Option String) : Request :=
  { url, route := .entry, ns }

/-- What is known where a tag opens. -/
structure Site where
  /-- The kind of tag. -/
  tag : Tag
  /-- The kind of the tag around it. -/
  parentTag : Option Tag
  /-- The attributes without those that bind prefixes. -/
  attributes : List (String × String)
  /-- The prefixes in force, those of the tag included. -/
  bindings : Bindings
  /-- The namespace of the scope in which the tag stands. -/
  uri : String
  /-- Whether local elements belong to the namespace by default. -/
  elementQualified : Bool
  /-- Whether local attributes belong to the namespace by default. -/
  attributeQualified : Bool
  /-- How often the content around the tag may occur. -/
  occurs : Occurrence
  /-- Where the tag stands. -/
  place : Location

/-- A declaration that a tag makes. -/
structure Registration where
  /-- The declared name. -/
  name : Option QName
  /-- The symbol space. -/
  space : SymbolSpace
  /-- The occurrences. -/
  occurs : Occurrence
  deriving DecidableEq, Repr

/-- What an accepted tag does. -/
structure Effect where
  /-- The declaration it makes in the scope in which it stands. -/
  declares : Option Registration := none
  /-- The name its node bears without a declaration. -/
  bears : Option QName := none
  /-- Whether it opens a scope for its content. -/
  opensScope : Bool := false
  /-- How often its content may occur. -/
  childOccurs : Occurrence
  /-- Whether the complex type around it has mixed content. -/
  marksMixed : Bool := false
  /-- The value it adds to the enumerations of the tag around it. -/
  contributes : Option String := none
  /-- The document it asks for. -/
  request : Option Request := none
  deriving DecidableEq, Repr

/-- What becomes of a tag. -/
structure Plan where
  /-- What its node holds. -/
  payload : Payload
  /-- What it does, or why it is refused. -/
  effect : Except SchemaError Effect

namespace Site

/-- The value of an attribute as written. -/
def attribute? (s : Site) (key : String) : Option String :=
  s.attributes.lookup key

/-- The value of an attribute that has to be there. -/
def required (s : Site) (key : String) : Except SchemaError String :=
  match s.attribute? key with
  | some value => .ok value
  | none => .error (.invalidAttribute key "" s.place)

/-- The name that a text means here. -/
def qname (s : Site) (raw : String) : Except SchemaError QName :=
  (s.bindings.resolve raw).mapError fun cause => .unboundPrefix cause s.place

/-- The name that an attribute means, if the attribute is there. -/
def qname? (s : Site) (key : String) : Except SchemaError (Option QName) :=
  match s.attribute? key with
  | some raw => (s.qname raw).map some
  | none => .ok none

/-- The occurrences that the tag itself gives; each bound is one by default. -/
def ownOccurs (s : Site) : Except SchemaError Occurrence := do
  let min ←
    match s.attribute? "minOccurs" with
    | none => .ok Count.one
    | some raw =>
      match Count.parse? raw with
      | some n => .ok n
      | none => .error (.invalidAttribute "minOccurs" raw s.place)
  let max ←
    match s.attribute? "maxOccurs" with
    | none => .ok Bound.one
    | some raw =>
      match Bound.parse? raw with
      | some b => .ok b
      | none => .error (.invalidAttribute "maxOccurs" raw s.place)
  return ⟨min, max⟩

/-- The occurrences of the tag within the content around it. -/
def totalOccurs (s : Site) : Except SchemaError Occurrence :=
  s.ownOccurs.map s.occurs.times

/-- Whether the tag stands directly in `schema` or `redefine`. -/
def isGlobal (s : Site) : Bool :=
  s.parentTag = some .schema || s.parentTag = some .redefineDoc

/-- Whether an attribute has a given value. -/
def hasValue (s : Site) (key value : String) : Bool :=
  s.attribute? key = some value

/-- The name of a global definition. -/
def globalName (s : Site) : Except SchemaError QName :=
  (s.required "name").map fun localName => ⟨s.uri, localName⟩

/-- The name under which an element or an attribute is declared. A reference takes the name it
refers to. A local declaration belongs to the namespace only if its `form`, or else the document's
default, says so. -/
def declaredName (s : Site) (refName : Option QName) (qualifiedByDefault : Bool) :
    Except SchemaError QName := do
  match refName with
  | some name => return name
  | none =>
    let localName ← s.required "name"
    let isQualified := s.isGlobal ||
      match s.attribute? "form" with
      | some form => form = "qualified"
      | none => qualifiedByDefault
    return ⟨if isQualified then s.uri else "", localName⟩

/-! ## Plans by kind of tag -/

/-- The plan of a tag that may be refused before it holds anything. -/
def planOf (s : Site) (p : Except SchemaError (Payload × Effect)) : Plan :=
  match p with
  | .ok (payload, effect) => ⟨payload, .ok effect⟩
  | .error e => ⟨s.tag.payload, .error e⟩

/-- An element is declared with its occurrences; its content starts again from once. -/
def element (s : Site) : Plan := s.planOf do
  let refName ← s.qname? "ref"
  let typeName ← s.qname? "type"
  let name ← s.declaredName refName s.elementQualified
  let occurs ← if s.isGlobal then .ok .once else s.totalOccurs
  return (.element { isGlobal := s.isGlobal, typeName, refName },
    { declares := some ⟨some name, .element, occurs⟩, opensScope := true, childOccurs := .once })

/-- An attribute is declared unless its use is prohibited. -/
def attr (s : Site) : Plan := s.planOf do
  let refName ← s.qname? "ref"
  let typeName ← s.qname? "type"
  let name ← s.declaredName refName s.attributeQualified
  let prohibited := s.hasValue "use" "prohibited"
  let occurs := if s.hasValue "use" "required" then .once else .atMostOnce
  let declares := if prohibited then none else some ⟨some name, .attr, occurs⟩
  return (.attr { isGlobal := s.isGlobal, typeName, refName } prohibited,
    { declares
      bears := if prohibited then some name else none
      opensScope := true
      childOccurs := s.occurs })

/-- What a type definition with a given payload does: a global one has a name, one directly within
an element or an attribute is declared without a name, and any other is not declared. -/
def typeDefinition (s : Site) (payload : Payload) : Plan where
  payload := payload
  effect := do
    let declares ←
      if s.isGlobal then
        s.globalName.map fun name => some (Registration.mk (some name) .type .once)
      else if s.parentTag = some .element || s.parentTag = some .attr then
        .ok (some (Registration.mk none .type .once))
      else .ok none
    return { declares, opensScope := true, childOccurs := .once }

/-- A derivation holds the name of its base. -/
def derivation (s : Site) : Plan := s.planOf do
  let base ← s.qname? "base"
  return (.derivation { isExtension := s.tag = .extension, base }, { childOccurs := s.occurs })

/-- An enumeration gives its value to the derivation around it. -/
def enumeration (s : Site) : Plan := s.planOf do
  let value ← s.required "value"
  return (.enumeration value, { childOccurs := s.occurs, contributes := some value })

/-- A list holds the name of its item type. -/
def list (s : Site) : Plan := s.planOf do
  let itemType ← s.qname? "itemType"
  return (.list itemType none, { childOccurs := s.occurs })

/-- A union holds the names of its member types. -/
def union (s : Site) : Plan := s.planOf do
  let memberTypes ← (Text.words ((s.attribute? "memberTypes").getD "")).mapM s.qname
  return (.union memberTypes [], { childOccurs := s.occurs })

/-- A content model passes its occurrences on; a choice requires none of its branches. -/
def particle (s : Site) : Plan := s.planOf do
  let occurs ← s.totalOccurs
  return (.particle occurs,
    { childOccurs := if s.tag = .choice then occurs.optional else occurs })

/-- A group is defined globally, and referred to anywhere else. -/
def group (s : Site) (definition reference : SymbolSpace) : Plan := s.planOf do
  if s.isGlobal then
    let name ← s.globalName
    return (s.tag.payload,
      { declares := some ⟨some name, definition, .once⟩
        opensScope := true
        childOccurs := .once })
  else
    match ← s.qname? "ref" with
    | none => throw (.invalidAttribute "ref" "" s.place)
    | some refName =>
      let occurs ← if s.tag = .group then s.totalOccurs else .ok .once
      return (.group (some refName) none,
        { declares := some ⟨none, reference, occurs⟩, childOccurs := s.occurs })

/-- A tag that refers to another document asks for it. Only an import may do without a location. -/
def documentRef (s : Site) (route : Route) : Plan where
  payload := .documentRef (s.attribute? "namespace") (s.attribute? "schemaLocation")
  effect :=
    match s.attribute? "schemaLocation" with
    | none =>
      if route = .imported then .ok { childOccurs := s.occurs }
      else .error (.invalidAttribute "schemaLocation" "" s.place)
    | some location =>
      let ns := if route = .imported then (s.attribute? "namespace").getD "" else s.uri
      let url := Place.resolve s.place.source location
      .ok
        { childOccurs := s.occurs
          request := some { url, route, ns := some ns, origin := some s.place } }

/-- The plan of a tag other than `schema`. -/
def plan (s : Site) : Plan :=
  match s.tag with
  | .importDoc => s.documentRef .imported
  | .includeDoc => s.documentRef .included
  | .redefineDoc => s.documentRef .redefined
  | .element => s.element
  | .attr => s.attr
  | .complexType =>
    s.typeDefinition (.complexType (s.hasValue "mixed" "true") (s.hasValue "abstract" "true"))
  | .simpleType => s.typeDefinition .simpleType
  | .complexContent =>
    ⟨s.tag.payload, .ok { childOccurs := s.occurs, marksMixed := s.hasValue "mixed" "true" }⟩
  | .extension | .restriction => s.derivation
  | .enumeration => s.enumeration
  | .list => s.list
  | .union => s.union
  | .sequence | .choice | .all => s.particle
  | .group => s.group .group .groupRef
  | .attrGroup => s.group .attrGroup .attrGroupRef
  | _ => ⟨s.tag.payload, .ok { childOccurs := s.occurs }⟩

end Site

end XsdTypes
