import XsdTypes.Schema.Resolution

/-!
# Loading documents

Loading starts from one document and goes on to all that it refers to, in the order in which they
are asked for. A document is asked for once, however many others refer to it, and an import is
passed over if its namespace is already known. When no request is left, the references of all new
nodes are bound.

Loading is a machine that hands out a request and takes the answer back, so that it does not matter
where documents come from.
-/

namespace XsdTypes

/-- A load in progress. -/
structure Loading where
  /-- The graph so far. -/
  graph : Graph
  /-- The requests that wait for an answer, in order. -/
  pending : List Request := []
  /-- The URLs that have been asked for. -/
  queued : List String := []
  /-- The namespace of the document that loading started from, once it has been read. -/
  entry : Option NamespaceId := none

namespace Loading

/-- Asks for a document, unless it has been asked for or read, or it is an import whose namespace
is known. An import makes its namespace known. -/
def enqueue (l : Loading) (request : Request) : Loading :=
  if l.queued.contains request.url || (l.graph.documentId? request.url).isSome then l
  else
    let ask (graph : Graph) : Loading :=
      { l with
        graph
        pending := l.pending ++ [request]
        queued := request.url :: l.queued }
    if request.route = .imported then
      let uri := request.ns.getD ""
      if (l.graph.namespaceId? uri).isSome then l else ask (l.graph.register uri).1
    else ask l.graph

/-- The load that starts from a document. -/
def start (g : Graph) (url : String) (ns : Option String) : Loading :=
  ({ graph := g } : Loading).enqueue (.entry url ns)

/-- Whether a document is an import that is not needed, because its namespace has a document. -/
def isRedundant (g : Graph) (request : Request) : Bool :=
  request.route = .imported &&
    match request.ns.bind g.namespaceId? with
    | some ns => !(g.namespaceAt ns).documents.isEmpty
    | none => false

/-- Takes the answer to a request that no longer waits. -/
def receive (l : Loading) (request : Request) (answer : Except FetchFault String) :
    Except Halt Loading :=
  match answer with
  | .error fault =>
    if isRedundant l.graph request then .ok l
    else .error ⟨.fetch request.url fault request.origin, l.graph⟩
  | .ok text => do
    let (graph, parsed) ← Reading.read request l.graph text
    let entry := if request.route = .entry then some parsed.ns else l.entry
    return parsed.requests.foldl enqueue { l with graph, entry }

/-- The graph with all namespaces loaded that have documents. -/
def markLoaded (g : Graph) : Graph :=
  { g with
    namespaces := g.namespaces.map
      (fun ns => if ns.documents.isEmpty then ns else { ns with isLoaded := true })
      fun ns => by split <;> rfl }

/-- Ends the load: binds the references of the nodes from `first` on. -/
def finish (l : Loading) (url : String) (first : NodeId) : Except Halt (Graph × NamespaceId) := do
  let graph := markLoaded (← Resolution.resolveAll l.graph first)
  match l.entry with
  | some ns => return (graph, ns)
  | none => throw ⟨.fetch url .notLoaded none, graph⟩

variable {m : Type → Type} [Monad m]

/-- Answers at most `limit` requests with `fetch`, in order. -/
def run (fetch : String → m (Except FetchFault String)) : Nat → Loading → m (Except Halt Loading)
  | 0, l =>
    match l.pending with
    | [] => pure (.ok l)
    | request :: _ =>
      pure (.error ⟨.fetch request.url .tooMany request.origin, l.graph⟩)
  | limit + 1, l =>
    match l.pending with
    | [] => pure (.ok l)
    | request :: pending => do
      match ({ l with pending } : Loading).receive request (← fetch request.url) with
      | .error halt => pure (.error halt)
      | .ok l => run fetch limit l

/-- Loads a document and all that it refers to, and gives the namespace of the document. A document
that has been read is not read again. -/
def load (fetch : String → m (Except FetchFault String)) (limit : Nat) (g : Graph) (url : String)
    (ns : Option String) : m (Except Halt (Graph × NamespaceId)) := do
  match g.documentId? url with
  | some id => pure (.ok (g, (g.documentAt id).ns))
  | none =>
    match ← run fetch limit (start g url ns) with
    | .error halt => pure (.error halt)
    | .ok l => pure (l.finish url g.nodes.size)

end Loading

end XsdTypes
