import XsdTypes.Markup.Stream
import XsdTypes.Schema.Opening

/-!
# Reading a document

The events of a document are read one by one into a graph. A tag that is not known, or does not
belong where it stands, is recorded and passed over with all that is in it; what stands in
documentation is passed over without a record. Prefixes are bound also in what is passed over, so
that every tag sees the bindings of the tags around it and no others.

Reading stops at the first error. The graph it leaves is kept, because what was read before the
error stays in it.
-/

namespace XsdTypes

/-- A tag that is open. -/
structure Frame where
  /-- The node of the tag. -/
  node : NodeId
  /-- The kind of tag. -/
  tag : Tag
  /-- The scope in which its content is declared. -/
  scope : ScopeId
  /-- How often its content may occur. -/
  occurs : Occurrence
  deriving DecidableEq, Repr

/-- A document that is being read. -/
structure Reading where
  /-- The graph so far. -/
  graph : Graph
  /-- The prefixes in force. -/
  bindings : Bindings := .initial
  /-- The open tags that are read, innermost first. -/
  frames : List Frame := []
  /-- The number of open tags that are passed over. -/
  skipped : Nat := 0
  /-- The document, once its `schema` tag has opened. -/
  document : Option DocumentId := none
  /-- The documents it asks for, in order. -/
  requests : List Request := []

/-- What has been read. -/
structure Parsed where
  /-- The document. -/
  document : DocumentId
  /-- The namespace in which it declares things. -/
  ns : NamespaceId
  /-- The documents it asks for. -/
  requests : List Request

namespace Reading

/-- What becomes of a tag by where it stands. -/
inductive Admission where
  /-- It is read. -/
  | enter (tag : Tag)
  /-- It is passed over. -/
  | ignore
  /-- It is recorded and passed over. -/
  | report (parent : Tag)
  /-- The document is refused. -/
  | refuse

/-- Whether a tag is read, by the innermost open tag: the outermost tag has to be `schema`. -/
def admission (parent : Option Tag) (tag : Option Tag) : Admission :=
  match parent, tag with
  | none, some .schema => .enter .schema
  | none, _ => .refuse
  | some parent, tag =>
    if parent.isFreeForm then .ignore
    else
      match tag with
      | some tag => if parent.mayContain tag then .enter tag else .report parent
      | none => .report parent

/-- The prefix that an attribute binds. -/
def boundPrefix? (key : String) : Option String :=
  if key = "xmlns" then some "" else Text.strip "xmlns:" key

/-- The bindings within a tag. -/
def bindAll (bindings : Bindings) (attributes : List (String × String)) : Bindings :=
  attributes.foldl
    (fun b (key, value) =>
      match boundPrefix? key with
      | some pfx => b.bind pfx value
      | none => b)
    bindings.push

/-- The attributes that bind no prefix. -/
def plainAttributes (attributes : List (String × String)) : List (String × String) :=
  attributes.filter fun (key, _) => (boundPrefix? key).isNone

/-! ## The `schema` tag -/

/-- The namespace of a document: the one it declares, or else the one it is asked for in. An
imported document takes no namespace from the import. -/
def documentUri (request : Request) (declared : Option String) : String :=
  let adopted := if request.route = .imported then none else request.ns
  (declared.or adopted).getD ""

/-- A document that declares no namespace and takes one over has it as its default namespace too,
unless it has another. -/
def adopt (bindings : Bindings) (declared : Option String) (uri : String) : Bindings :=
  if declared.isNone ∧ uri ≠ "" ∧ bindings.defaultUri = "" then bindings.bind "" uri
  else bindings

/-- Opens the `schema` tag, whose node is `id`: the document and its namespace are added. -/
def openSchema (request : Request) (r : Reading) (id : NodeId)
    (attributes : List (String × String)) : Reading :=
  let declared := attributes.lookup "targetNamespace"
  let uri := documentUri request declared
  let (graph, ns) := r.graph.register uri
  let isQualified (key : String) : Bool := attributes.lookup key = some "qualified"
  let (graph, document) := graph.addDocument
    { url := request.url
      ns
      route := request.route
      elementQualified := isQualified "elementFormDefault"
      attributeQualified := isQualified "attributeFormDefault" }
  let root := (graph.namespaceAt ns).root
  { r with
    graph := graph.modifyNode id fun node =>
      { node with document := some document, scope := root, ownScope := some root }
    bindings := adopt r.bindings declared uri
    frames := ⟨id, .schema, root, .once⟩ :: r.frames
    document := some document }

/-! ## Other tags -/

/-- Declares what a tag declares: within `redefine` a name is redefined. -/
def register (g : Graph) (id : NodeId) (parentTag : Option Tag) (reg : Registration) :
    Except Halt Graph :=
  let target := (g.nodeAt id).scope
  match reg.name with
  | some name =>
    if parentTag = some .redefineDoc then .ok (g.redefine reg.space name id target)
    else g.declare ⟨some name, reg.space, id, reg.occurs⟩ target
  | none => g.declare ⟨none, reg.space, id, reg.occurs⟩ target

/-- The node with mixed content, if it is a complex type. -/
def markMixed (node : Node) : Node :=
  match node.payload with
  | .complexType _ isAbstract => { node with payload := .complexType true isAbstract }
  | _ => node

/-- The node with one more value in its enumerations, if it is a derivation. -/
def addEnumeration (value : String) (node : Node) : Node :=
  match node.payload with
  | .derivation d =>
    { node with payload := .derivation { d with enumerations := d.enumerations ++ [value] } }
  | _ => node

/-- Carries the effect of a tag out on the graph; `scope` is the scope in which the tag stands. The
scope of its content comes with the graph. -/
def perform (g : Graph) (id : NodeId) (scope : ScopeId) (parent : Frame) (effect : Effect) :
    Except Halt (Graph × ScopeId) := do
  let g := if effect.marksMixed then g.modifyNode parent.node markMixed else g
  let g :=
    match effect.contributes with
    | some value => g.modifyNode parent.node (addEnumeration value)
    | none => g
  let g :=
    match effect.bears with
    | some name => g.modifyNode id fun node => { node with name := some name }
    | none => g
  let g ←
    match effect.declares with
    | some reg => register g id (some parent.tag) reg
    | none => .ok g
  if effect.opensScope then
    let (g, own) := g.addScope (some scope) (g.scopeAt scope).ns
    return (g.modifyNode id fun node => { node with ownScope := some own }, own)
  else return (g, scope)

/-- Opens a tag other than `schema`, whose node is `id`. -/
def openTag (request : Request) (r : Reading) (id : NodeId) (parent : Frame) (tag : Tag)
    (position : Position) (attributes : List (String × String)) : Except Halt Reading :=
  let document := (r.document.map r.graph.documentAt).getD default
  let site : Site :=
    { tag
      parentTag := some parent.tag
      attributes
      bindings := r.bindings
      uri := r.graph.targetUri id
      elementQualified := document.elementQualified
      attributeQualified := document.attributeQualified
      occurs := parent.occurs
      place := ⟨request.url, position, some tag.text⟩ }
  let plan := site.plan
  let graph := r.graph.modifyNode id fun node => { node with payload := plan.payload }
  match plan.effect with
  | .error error => .error ⟨error, graph⟩
  | .ok effect =>
    match perform graph id parent.scope parent effect with
    | .error halt => .error halt
    | .ok (graph, own) =>
      .ok
        { r with
          graph
          frames := ⟨id, tag, own, effect.childOccurs⟩ :: r.frames
          requests := r.requests ++ effect.request.toList }

/-- Adds the node of a tag, and to the tag around it. -/
def addTagNode (r : Reading) (parent : Option Frame) (tag : Tag) (position : Position)
    (attributes : List (String × String)) : Reading × NodeId :=
  let scope :=
    match parent with
    | some frame => frame.scope
    | none => (r.graph.namespaceAt Graph.schemaNamespace).root
  let (graph, id) := r.graph.addNode
    { Node.ofTag tag scope position with
      parent := parent.map Frame.node
      attributes
      document := r.document }
  let graph :=
    match parent with
    | some frame =>
      graph.modifyNode frame.node fun node => { node with children := node.children ++ [id] }
    | none => graph
  ({ r with graph }, id)

/-! ## Events -/

/-- A tag opens. -/
def opened (request : Request) (r : Reading) (position : Position) (name : String)
    (attributes : List (String × String)) : Except Halt Reading :=
  let r := { r with bindings := bindAll r.bindings attributes }
  let attributes := plainAttributes attributes
  if 0 < r.skipped then .ok { r with skipped := r.skipped + 1 }
  else
    match r.bindings.resolve name with
    | .error cause => .error ⟨.unboundPrefix cause ⟨request.url, position, none⟩, r.graph⟩
    | .ok qname =>
      match admission (r.frames.head?.map Frame.tag) (Tag.ofQName? qname) with
      | .refuse =>
        .error ⟨.malformed ⟨request.url, position, none⟩ (.foreignRoot name), r.graph⟩
      | .ignore => .ok { r with skipped := 1 }
      | .report parent =>
        let place : Location := ⟨request.url, position, some parent.text⟩
        let diagnostic := SchemaError.unexpectedTag name parent.text place
        .ok
          { r with
            graph := { r.graph with diagnostics := r.graph.diagnostics ++ [diagnostic] }
            skipped := 1 }
      | .enter tag =>
        let parent := r.frames.head?
        let (r, id) := r.addTagNode parent tag position attributes
        match parent with
        | none => .ok (openSchema request r id attributes)
        | some parent => openTag request r id parent tag position attributes

/-- The text of a documentation: its lines without surrounding blanks, the blank ones left out. -/
def documentationText (raw : String) : String :=
  Text.join "\n" (((Text.lines raw).map Text.trim).filter fun line => line ≠ "")

/-- A documentation tag closes: its text goes to the node around its annotation. -/
def closeDocumentation (g : Graph) (id : NodeId) : Graph :=
  match (g.nodeAt id).payload with
  | .documentation raw =>
    let text := documentationText raw
    if text = "" then g
    else
      match (g.nodeAt id).parent.bind fun note => (g.nodeAt note).parent with
      | some annotated => g.modifyNode annotated fun node => node.addComment text
      | none => g
  | _ => g

/-- The innermost tag closes. -/
def closed (r : Reading) : Reading :=
  if 0 < r.skipped then { r with skipped := r.skipped - 1, bindings := r.bindings.pop }
  else
    match r.frames with
    | [] => r
    | frame :: frames =>
      { r with
        graph := closeDocumentation r.graph frame.node
        frames
        bindings := r.bindings.pop }

/-- The node with more text, if it is a documentation. -/
def addText (text : String) (node : Node) : Node :=
  match node.payload with
  | .documentation raw => { node with payload := .documentation (raw ++ text) }
  | _ => node

/-- Text stands in the innermost tag. -/
def text (r : Reading) (content : String) : Reading :=
  if 0 < r.skipped ∨ Text.isBlank content then r
  else
    match r.frames with
    | [] => r
    | frame :: _ => { r with graph := r.graph.modifyNode frame.node (addText content) }

/-- Reads one event. -/
def step (request : Request) (r : Reading) : Position × Markup.Event → Except Halt Reading
  | (position, .opened name attributes) => r.opened request position name attributes
  | (_, .closed) => .ok r.closed
  | (_, .text content) => .ok (r.text content)

/-- Reads the end of the document. -/
def finish (request : Request) (r : Reading) : Markup.Ending Position → Except Halt (Graph × Parsed)
  | .broken position fault =>
    .error ⟨.malformed ⟨request.url, position, none⟩ (.markup fault), r.graph⟩
  | .complete stop =>
    if !r.frames.isEmpty then
      .error ⟨.malformed ⟨request.url, stop, none⟩ .unfinished, r.graph⟩
    else
      match r.document with
      | none => .error ⟨.malformed ⟨request.url, .first, none⟩ .noSchema, r.graph⟩
      | some document => .ok (r.graph, ⟨document, (r.graph.documentAt document).ns, r.requests⟩)

/-- Reads the events of a document into a graph. -/
def readStream (request : Request) (g : Graph) (s : Markup.Stream Position) :
    Except Halt (Graph × Parsed) := do
  let r ← s.items.foldlM (step request) { graph := g }
  r.finish request s.ending

/-- Reads a document into a graph. -/
def read (request : Request) (g : Graph) (text : String) : Except Halt (Graph × Parsed) :=
  readStream request g (Markup.stream text.toList)

end Reading

end XsdTypes
