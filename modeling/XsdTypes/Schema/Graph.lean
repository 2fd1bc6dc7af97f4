import XsdTypes.Schema.Builtin
import XsdTypes.Schema.Error
import XsdTypes.Schema.Node

/-!
# Schema graphs

A schema graph holds all that has been read: namespaces, scopes, nodes and documents, each numbered
in the order of its creation and referred to by its number. The namespaces come with an index, which
has the number of the namespace for each URI. A new graph holds the built-in types and the attributes
of the `xml` namespace.

Every namespace has one root scope, which has no parent; the parent of any other scope is older
than the scope. A name is looked up from a scope outwards and then in the root scope of its own
namespace.
-/

namespace XsdTypes

/-- How a document was reached. -/
inductive Route where
  /-- Loading started from it. -/
  | entry
  | imported
  | included
  | redefined
  deriving DecidableEq, Repr, Inhabited

/-- The word for a route. -/
def Route.text : Route → String
  | .entry => "entry"
  | .imported => "import"
  | .included => "include"
  | .redefined => "redefine"

/-- A namespace that is declared or referred to. -/
structure Namespace where
  /-- The URI, empty for no namespace. -/
  uri : String
  /-- The scope of the global declarations. -/
  root : ScopeId
  /-- Whether all its documents have been read and their references bound. -/
  isLoaded : Bool := false
  /-- The documents that declare things in it, in the order in which they were read. -/
  documents : List DocumentId := []
  deriving Repr, Inhabited

/-- The namespaces, with an index of their URIs. -/
structure NamespaceTable where
  /-- The namespaces in the order of their registration. -/
  items : Array Namespace
  /-- The numbers of the namespaces by their URIs. -/
  byUri : List (String × NamespaceId)
  /-- The index gives what a search for the URI would. -/
  lookup_byUri : ∀ uri, byUri.lookup uri = (items.map Namespace.uri).findIdx? (· == uri)

namespace NamespaceTable

/-- The table without namespaces. -/
def empty : NamespaceTable where
  items := #[]
  byUri := []
  lookup_byUri _ := by simp

/-- The number of namespaces. -/
def size (t : NamespaceTable) : Nat := t.items.size

/-- The number of the namespace with a URI. -/
def find? (t : NamespaceTable) (uri : String) : Option NamespaceId :=
  t.byUri.lookup uri

/-- The table with one more namespace. -/
def push (t : NamespaceTable) (ns : Namespace) : NamespaceTable where
  items := t.items.push ns
  byUri := t.byUri ++ [(ns.uri, t.items.size)]
  lookup_byUri uri := by
    have hnew : [(ns.uri, t.items.size)].lookup uri =
        if ns.uri == uri then some t.items.size else none := by
      rw [List.lookup_cons, BEq.comm]
      cases ns.uri == uri <;> rfl
    rw [List.lookup_append, t.lookup_byUri, hnew, Array.map_push, Array.findIdx?_push,
      Array.size_map]

/-- The table with other namespaces of the same URIs. -/
def withItems (t : NamespaceTable) (items : Array Namespace)
    (h : items.map Namespace.uri = t.items.map Namespace.uri) : NamespaceTable where
  items
  byUri := t.byUri
  lookup_byUri uri := by rw [h]; exact t.lookup_byUri uri

/-- Changes one namespace, but not its URI. -/
def modify (t : NamespaceTable) (id : NamespaceId) (f : Namespace → Namespace)
    (hf : ∀ ns, (f ns).uri = ns.uri) : NamespaceTable :=
  t.withItems (t.items.modify id f) (by
    refine Array.ext (by simp) fun i hi _ => ?_
    rw [Array.getElem_map, Array.getElem_map, Array.getElem_modify]
    split
    · exact hf _
    · rfl)

/-- Changes all namespaces, but not their URIs. -/
def map (t : NamespaceTable) (f : Namespace → Namespace) (hf : ∀ ns, (f ns).uri = ns.uri) :
    NamespaceTable :=
  t.withItems (t.items.map f) (by
    rw [Array.map_map]
    exact Array.map_congr_left fun ns _ => hf ns)

end NamespaceTable

/-- A document that has been read, at least in part. -/
structure Document where
  /-- The URL or path. -/
  url : String
  /-- The namespace in which its global declarations stand. -/
  ns : NamespaceId
  /-- How it was reached. -/
  route : Route
  /-- Whether local elements belong to the namespace unless they say otherwise. -/
  elementQualified : Bool
  /-- Whether local attributes belong to the namespace unless they say otherwise. -/
  attributeQualified : Bool
  deriving Repr, Inhabited

/-- All that has been read. -/
structure Graph where
  /-- The namespaces. -/
  namespaces : NamespaceTable := .empty
  /-- The scopes. -/
  scopes : Array Scope := #[]
  /-- The nodes. -/
  nodes : Array Node := #[]
  /-- The documents. -/
  documents : Array Document := #[]
  /-- The global names whose redefinition stands for good. -/
  redefined : List SchemaSymbol := []
  /-- What repeated declarations do. -/
  policy : RepeatPolicy
  /-- The tags that were passed over, in order. -/
  diagnostics : List SchemaError := []

/-- An error with the graph as it was when the error was met. -/
structure Halt where
  /-- The error. -/
  error : SchemaError
  /-- The graph it leaves. -/
  graph : Graph

namespace Graph

/-! ## Reading a graph -/

/-- The namespace with a number. -/
def namespaceAt (g : Graph) (id : NamespaceId) : Namespace := g.namespaces.items.getD id default

/-- The scope with a number. -/
def scopeAt (g : Graph) (id : ScopeId) : Scope := g.scopes.getD id default

/-- The node with a number. -/
def nodeAt (g : Graph) (id : NodeId) : Node := g.nodes.getD id default

/-- The document with a number. -/
def documentAt (g : Graph) (id : DocumentId) : Document := g.documents.getD id default

/-- The number of the namespace with a URI. -/
def namespaceId? (g : Graph) (uri : String) : Option NamespaceId :=
  g.namespaces.find? uri

/-- The number of the first document with a URL. -/
def documentId? (g : Graph) (url : String) : Option DocumentId :=
  g.documents.findIdx? fun d => d.url = url

/-- The namespace of XML Schema itself. -/
def schemaNamespace : NamespaceId := 0

/-- The namespace of the reserved attributes. -/
def xmlNamespace : NamespaceId := 1

/-- Whether a namespace is there from the start. -/
def isBuiltin (id : NamespaceId) : Bool :=
  id = schemaNamespace || id = xmlNamespace

/-- The root scope of a namespace. -/
def rootScope (g : Graph) (id : NamespaceId) : Scope :=
  g.scopeAt (g.namespaceAt id).root

/-- The global declarations of a namespace, in order. -/
def globals (g : Graph) (id : NamespaceId) : List Declaration :=
  (g.rootScope id).entries

/-- The node of a built-in type. -/
def builtin? (g : Graph) (localName : String) : Option NodeId :=
  ((g.rootScope schemaNamespace).find? (.type, QName.schema localName)).map (·.node)

/-- Where a node stands, for reports. -/
def location (g : Graph) (id : NodeId) : Location :=
  let node := g.nodeAt id
  let source :=
    match node.document with
    | some d => (g.documentAt d).url
    | none => "<builtin>"
  ⟨source, node.position, some node.tag.text⟩

/-- The URI of the namespace in whose scopes a node stands. -/
def targetUri (g : Graph) (id : NodeId) : String :=
  (g.namespaceAt (g.scopeAt (g.nodeAt id).scope).ns).uri

/-- The global declaration of a name in its own namespace. -/
def findGlobal? (g : Graph) (symbol : SchemaSymbol) : Option Declaration :=
  (g.namespaceId? symbol.2.uri).bind fun ns => (g.rootScope ns).find? symbol

/-- Looks a name up in a scope and in the scopes around it, at most `fuel` of them. -/
def findOutward? (g : Graph) (symbol : SchemaSymbol) : Nat → ScopeId → Option Declaration
  | 0, _ => none
  | fuel + 1, id =>
    match (g.scopeAt id).find? symbol with
    | some d => some d
    | none =>
      match (g.scopeAt id).parent with
      | some parent => findOutward? g symbol fuel parent
      | none => none

/-- The nearest declaration of a name: in the scope, in the scopes around it, or else among the
global declarations of the name's own namespace. -/
def lookup? (g : Graph) (start : ScopeId) (symbol : SchemaSymbol) : Option Declaration :=
  (g.findOutward? symbol g.scopes.size start).or (g.findGlobal? symbol)

/-- The node that a name means where a node stands. -/
def resolveFrom (g : Graph) (id : NodeId) (symbol : SchemaSymbol) : Except SchemaError NodeId :=
  match g.lookup? (g.nodeAt id).scope symbol with
  | some d => .ok d.node
  | none => .error (.unresolved symbol.1 symbol.2 (g.location id))

/-- The node that a name means among the global declarations. -/
def resolveGlobal (g : Graph) (id : NodeId) (symbol : SchemaSymbol) : Except SchemaError NodeId :=
  match g.findGlobal? symbol with
  | some d => .ok d.node
  | none => .error (.unresolved symbol.1 symbol.2 (g.location id))

/-! ## Building a graph -/

/-- Adds a scope. -/
def addScope (g : Graph) (parent : Option ScopeId) (ns : NamespaceId) : Graph × ScopeId :=
  ({ g with scopes := g.scopes.push { parent, ns } }, g.scopes.size)

/-- Adds a node. -/
def addNode (g : Graph) (node : Node) : Graph × NodeId :=
  ({ g with nodes := g.nodes.push node }, g.nodes.size)

/-- Changes a node. -/
def modifyNode (g : Graph) (id : NodeId) (f : Node → Node) : Graph :=
  { g with nodes := g.nodes.modify id f }

/-- Changes a scope. -/
def modifyScope (g : Graph) (id : ScopeId) (f : Scope → Scope) : Graph :=
  { g with scopes := g.scopes.modify id f }

/-- Changes a namespace, but not its URI. -/
def modifyNamespace (g : Graph) (id : NamespaceId) (f : Namespace → Namespace)
    (hf : ∀ ns, (f ns).uri = ns.uri) : Graph :=
  { g with namespaces := g.namespaces.modify id f hf }

/-- The number of a namespace, which is added with its root scope if it is new. -/
def register (g : Graph) (uri : String) : Graph × NamespaceId :=
  match g.namespaceId? uri with
  | some id => (g, id)
  | none =>
    let id := g.namespaces.size
    let (g, root) := g.addScope none id
    ({ g with namespaces := g.namespaces.push { uri, root } }, id)

/-- Adds a document to the namespace it declares things in. -/
def addDocument (g : Graph) (document : Document) : Graph × DocumentId :=
  let id := g.documents.size
  let g := { g with documents := g.documents.push document }
  (g.modifyNamespace document.ns (fun ns => { ns with documents := ns.documents ++ [id] })
    fun _ => rfl, id)

/-- Adds a declaration to a scope, and its name to its node. A global name that has been redefined
keeps its redefinition: the declaration is passed over. -/
def declare (g : Graph) (d : Declaration) (target : ScopeId) : Except Halt Graph :=
  let scope := g.scopeAt target
  let atRoot := scope.parent.isNone
  let isRedefined :=
    match d.symbol? with
    | some symbol => atRoot && g.redefined.contains symbol
    | none => false
  if isRedefined then .ok g
  else
    match scope.insert d (g.policy.rule d.space atRoot) with
    | .error refusal =>
      let g := g.modifyScope target fun _ => refusal.scope
      .error ⟨.duplicate d.space (d.name.getD (QName.bare "")) (g.location d.node), g⟩
    | .ok scope =>
      .ok ((g.modifyScope target fun _ => scope).modifyNode d.node
        fun node => { node with name := d.name })

/-- Puts a declaration in the place of the one that has its name, and keeps it there. -/
def redefine (g : Graph) (space : SymbolSpace) (name : QName) (node : NodeId)
    (target : ScopeId) : Graph :=
  let d : Declaration := ⟨some name, space, node, .once⟩
  let g := (g.modifyScope target fun scope => scope.replace d).modifyNode node
    fun n => { n with name := some name }
  { g with redefined := (space, name) :: g.redefined }

/-- Adds something built in: a node that declares a name in a root scope. -/
def addBuiltin (space : SymbolSpace) (occurs : Occurrence) (ns : NamespaceId) (g : Graph)
    (name : QName) (tag : Tag) (payload : Payload) : Graph :=
  let root := (g.namespaceAt ns).root
  let (g, id) := g.addNode
    { tag, payload, scope := root, position := ⟨0, 0, 0⟩, name := some name, resolved := true }
  g.modifyScope root fun scope => scope.append ⟨some name, space, id, occurs⟩

/-- Marks all namespaces as loaded. -/
def loadAll (g : Graph) : Graph :=
  { g with namespaces := g.namespaces.map (fun ns => { ns with isLoaded := true }) fun _ => rfl }

/-- A graph with nothing but what is built in. -/
@[irreducible] def initial (policy : RepeatPolicy) : Graph :=
  let (g, ns) := Graph.register { policy } QName.schemaUri
  let g := Builtin.types.foldl
    (fun g (localName, primitive) =>
      addBuiltin .type .once ns g (QName.schema localName) .builtin (.builtin primitive)) g
  let stringType := g.builtin? "string"
  let (g, xml) := g.register QName.xmlUri
  let g := Builtin.xmlAttributes.foldl
    (fun g localName =>
      addBuiltin .attr .atMostOnce xml g ⟨QName.xmlUri, localName⟩ .attr
        (.attr { isGlobal := true, typeNode := stringType } false)) g
  g.loadAll

end Graph

end XsdTypes
