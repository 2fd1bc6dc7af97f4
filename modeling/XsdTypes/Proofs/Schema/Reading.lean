import XsdTypes.Proofs.Schema.Opening

/-!
# What reading a document leaves behind

Reading one event keeps the graph sound and every node of the document traced to its tag, and it
keeps what the open tags know of their nodes (`Valid`). So a document that has been read leaves a
graph in which the nodes that are new wait for their references to be bound.
-/

namespace XsdTypes

open Sequencing

/-- An open tag knows its node, the scope of its content and the occurrences of its content. -/
structure Frame.Stands (f : Frame) (g : Graph) : Prop where
  lt : f.node < g.nodes.size
  tag : (g.nodeAt f.node).tag = f.tag
  scope : (g.nodeAt f.node).contentScope = f.scope
  /-- What stands directly in `schema` or `redefine` is global. -/
  root : f.tag = .schema ∨ f.tag = .redefineDoc → (g.scopeAt f.scope).parent = none
  occurs : f.tag.carries (g.nodeAt f.node).ownScope.isSome = true →
    f.occurs = f.tag.contentOccurs (g.nodeAt f.node).payload

variable {g₀ g g' : Graph} {f : Frame}

namespace Frame.Stands

theorem scope_lt (h : f.Stands g) (hg : g.Sound) : f.scope < g.scopes.size :=
  h.scope ▸ hg.tree.contentScope_lt h.lt

theorem mono (h : f.Stands g) (hg : g.Sound) (hext : g.Extends g') : f.Stands g' where
  lt := Nat.lt_of_lt_of_le h.lt hext.nodes_le
  tag := (hext.tag h.lt).trans h.tag
  scope := (hext.contentScope h.lt).trans h.scope
  root ht := by
    rw [hext.scope_parent _ (h.scope_lt hg)]
    exact h.root ht
  occurs := by
    have hcore := hext.core _ h.lt
    rw [ownScope_eq_of_core hcore, Graph.contentOccurs_eq_of_core hcore]
    exact h.occurs

end Frame.Stands

namespace Reading

/-- The document has been read so far without harm to the graph. -/
structure Valid (g₀ : Graph) (r : Reading) : Prop where
  read : g₀.Read r.graph
  frames : ∀ f ∈ r.frames, g₀.nodes.size ≤ f.node ∧ f.Stands r.graph

variable {r r' : Reading} {request : Request}

/-- The graph grows and no tag opens. -/
theorem Valid.extend (h : r.Valid g₀) (hread : g₀.Read r'.graph) (hext : r.graph.Extends r'.graph)
    (hframes : r'.frames ⊆ r.frames) : r'.Valid g₀ where
  read := hread
  frames f hf := (h.frames f (hframes hf)).imp_right fun hf => hf.mono h.read.sound hext

/-! ## Tags that open -/

theorem admission_eq_enter {parent tag : Option Tag} {t : Tag} (h : admission parent tag = .enter t) :
    (parent = none ∧ t = .schema) ∨ ∃ p, parent = some p ∧ p.mayContain t := by
  cases parent with
  | none =>
    simp only [admission] at h
    split at h
    · cases h
      exact Or.inl ⟨rfl, rfl⟩
    · cases h
    · rename_i hsome
      cases hsome
  | some p =>
    simp only [admission] at h
    split at h
    · cases h
    · split at h
      · split at h
        · rename_i hmay
          cases h
          exact Or.inr ⟨p, rfl, hmay⟩
        · cases h
      · cases h

/-- The tags around a content model pass occurrences on, and their own are none. -/
theorem carries_of_mayContain_wraps {p tag : Tag} (hmay : p.mayContain tag) (hwraps : tag.wraps = true)
    (opensScope : Bool) (payload : Payload) :
    p.carries opensScope = true ∧ p.contentOccurs payload = .once := by
  cases tag
  case complexContent | simpleContent | extension | restriction =>
    cases p <;> first | exact ⟨rfl, rfl⟩ | exact nomatch hmay
  all_goals exact nomatch hwraps

theorem eq_schema_of_mayContain_redefineDoc {p : Tag} (h : p.mayContain .redefineDoc) : p = .schema := by
  cases p <;> first | rfl | exact nomatch h

theorem not_mayContain_schema (p : Tag) : p.mayContain .schema = false := by
  cases p <;> rfl

/-- The node of a tag before its attributes are looked at. -/
def tagNode (r : Reading) (f : Frame) (tag : Tag) (position : Position)
    (attributes : List (String × String)) : Node :=
  { Node.ofTag tag f.scope position with
    parent := some f.node
    attributes
    document := r.document }

/-- A tag within another one adds its node. -/
theorem newest_addTagNode (hg : r.graph.Sound) (hf : f.Stands r.graph) {tag : Tag}
    (hmay : f.tag.mayContain tag) (position : Position) (attributes : List (String × String)) :
    r.graph.Newest (r.addTagNode (some f) tag position attributes).1.graph
      (r.tagNode f tag position attributes) := by
  set node := r.tagNode f tag position attributes with hnode
  have hgraph : (r.addTagNode (some f) tag position attributes).1.graph =
      (r.graph.addNode node).1.modifyNode f.node
        fun n => { n with children := n.children ++ [r.graph.nodes.size] } := rfl
  rw [hgraph]
  have hne : r.graph.nodes.size ≠ f.node := Nat.ne_of_gt hf.lt
  refine
    { sound := hg.addChild hf.lt rfl rfl rfl hf.scope.symm (by rw [hf.tag]; exact hmay)
      ext := (Graph.Extends.addNode r.graph node).trans
        (Graph.Extends.modifyNode _ _ fun _ => rfl)
      size := by simp
      bound := fun n hn => ?_
      node_eq := ?_ }
  · rw [Graph.nodeAt_modifyNode]
    split
    · rw [Graph.nodeAt_addNode_of_lt _ _ hn]
      rfl
    · rw [Graph.nodeAt_addNode_of_lt _ _ hn]
  · rw [Graph.nodeAt_modifyNode_ne _ _ _ hne, Graph.nodeAt_addNode_self]
    rfl

/-- Where a tag stands. -/
def siteOf (request : Request) (r : Reading) (id : NodeId) (f : Frame) (tag : Tag)
    (position : Position) (attributes : List (String × String)) : Site :=
  let document := (r.document.map r.graph.documentAt).getD default
  { tag
    parentTag := some f.tag
    attributes
    bindings := r.bindings
    uri := r.graph.targetUri id
    elementQualified := document.elementQualified
    attributeQualified := document.attributeQualified
    occurs := f.occurs
    place := ⟨request.url, position, some tag.text⟩ }

theorem openTag_eq_ok {id : NodeId} {tag : Tag} {position : Position}
    {attributes : List (String × String)}
    (hok : openTag request r id f tag position attributes = .ok r') :
    ∃ e own g, (siteOf request r id f tag position attributes).plan.effect = .ok e ∧
      perform (r.graph.modifyNode id fun node => { node with
        payload := (siteOf request r id f tag position attributes).plan.payload }) id f.scope f e =
          .ok (g, own) ∧
      r' = { r with
        graph := g
        frames := ⟨id, tag, own, e.childOccurs⟩ :: r.frames
        requests := r.requests ++ e.request.toList } := by
  unfold openTag at hok
  extract_lets document site plan graph at hok
  split at hok
  · cases hok
  · rename_i e heffect
    split at hok
    · cases hok
    · rename_i g own hperform
      cases hok
      exact ⟨e, own, g, heffect, hperform, rfl⟩

theorem nodeAt_addTagNode (hf : f.Stands r.graph) (tag : Tag) (position : Position)
    (attributes : List (String × String)) :
    (r.addTagNode (some f) tag position attributes).1.graph.nodeAt r.graph.nodes.size =
      r.tagNode f tag position attributes := by
  have hgraph : (r.addTagNode (some f) tag position attributes).1.graph =
      (r.graph.addNode (r.tagNode f tag position attributes)).1.modifyNode f.node
        fun n => { n with children := n.children ++ [r.graph.nodes.size] } := rfl
  rw [hgraph, Graph.nodeAt_modifyNode_ne _ _ _ (Nat.ne_of_gt hf.lt), Graph.nodeAt_addNode_self]

/-- The frame of a tag that has opened knows its node. -/
theorem stands_opened {node : Node} {s : Site} {e : Effect} {own : ScopeId} {tag : Tag}
    (hf : f.Stands g) (hmay : f.tag.mayContain tag) (hnew : g.Newest g' node)
    (hacc : s.Accepted e) (htag : node.tag = tag) (hsite : s.tag = tag) (hoccurs : s.occurs = f.occurs)
    (hpayload : node.payload = s.plan.payload) (hscope : node.scope = f.scope)
    (hg : g.Sound) (hopens : (g'.nodeAt g.nodes.size).ownScope.isSome = e.opensScope)
    (hcontent : (g'.nodeAt g.nodes.size).contentScope = own) :
    (⟨g.nodes.size, tag, own, e.childOccurs⟩ : Frame).Stands g' where
  lt := hnew.lt
  tag := hnew.tag.trans htag
  scope := hcontent
  root ht := by
    -- no tag may contain `schema`, and only `schema` may contain `redefine`, which opens no scope
    rcases ht with rfl | rfl
    · rw [not_mayContain_schema] at hmay
      cases hmay
    · have hfs := eq_schema_of_mayContain_redefineDoc hmay
      have hnone : (g'.nodeAt g.nodes.size).ownScope = none := by
        rw [← Option.not_isSome_iff_eq_none, hopens, hacc.opens, hsite]
        exact Bool.false_ne_true
      rw [← hcontent, Node.contentScope, hnone, hnew.scope, hscope]
      exact (hf.mono hg hnew.ext).root (Or.inl hfs)
  occurs hcarries := by
    have hwraps : s.tag.wraps = true → s.occurs = .once := by
      intro hw
      rw [hsite] at hw
      obtain ⟨hc, ho⟩ := carries_of_mayContain_wraps hmay hw
        (g.nodeAt f.node).ownScope.isSome (g.nodeAt f.node).payload
      rw [hoccurs, hf.occurs hc, ho]
    rw [hopens, ← hsite] at hcarries
    rw [hnew.payload_eq, hpayload, ← hsite]
    exact hacc.occurs hcarries hwraps

/-- The node of a tag that has opened is traced to it. -/
theorem traced_opened {node : Node} {s : Site} {e : Effect} (hf : f.Stands g) (hg : g.Sound)
    (h : g.Settled g' node e) (heffect : s.plan.effect = .ok e) (htag : s.tag = node.tag)
    (hparent : node.parent = some f.node) (hparentTag : s.parentTag = some f.tag)
    (hattributes : s.attributes = node.attributes)
    (huri : s.uri = (g.namespaceAt (g.scopeAt f.scope).ns).uri) (hoccurs : s.occurs = f.occurs)
    (hpayload : node.payload = s.plan.payload) (hscope : node.scope = f.scope)
    (hopens : (g'.nodeAt g.nodes.size).ownScope.isSome = e.opensScope) :
    g'.Traced g.nodes.size f.node s e where
  parent := h.newest.parent.trans hparent
  tag := htag.trans h.newest.tag.symm
  parentTag := by rw [h.newest.ext.tag hf.lt, hf.tag]; exact hparentTag
  attributes := hattributes.trans h.newest.attributes.symm
  uri := by
    have hlt := hf.scope_lt hg
    rw [Graph.targetUri, h.newest.scope, hscope, h.newest.ext.scope_ns _ hlt,
      h.newest.ext.uri _ (hg.registry.ns_lt _ hlt)]
    exact huri
  occurs := by
    have hstands := hf.mono hg h.newest.ext
    rw [hstands.tag, hoccurs]
    exact hstands.occurs
  effect := heffect
  payload := by rw [h.newest.payload_eq, hpayload]
  opens := hopens
  bears := h.bears
  undeclared := h.undeclared
  declares := by rw [h.newest.scope]; exact h.declares

/-- What becomes of a document when a tag within that of the frame `f` is accepted at the site `s`
with the effect `e`: its node is the newest one, and the tag is open. -/
structure Opens (r r' : Reading) (f : Frame) (node : Node) (s : Site) (e : Effect)
    (own : ScopeId) : Prop where
  newest : r.graph.Newest r'.graph node
  accepted : s.Accepted e
  traced : r'.graph.Traced r.graph.nodes.size f.node s e
  bound : node.bound = (false, [], [])
  place : node.parent = some f.node ∧ node.scope = f.scope ∧ s.parentTag = some f.tag
  occurs : s.occurs = f.occurs
  stands : (⟨r.graph.nodes.size, node.tag, own, e.childOccurs⟩ : Frame).Stands r'.graph
  frames : r'.frames = ⟨r.graph.nodes.size, node.tag, own, e.childOccurs⟩ :: r.frames

/-- A tag within another one opens when its effect is carried out. -/
theorem opens_of_perform (hg : r.graph.Sound) (hstands : f.Stands r.graph) {tag : Tag}
    (hmay : f.tag.mayContain tag) {position : Position} {attributes : List (String × String)}
    {r₁ : Reading} (hr₁ : r₁ = (r.addTagNode (some f) tag position attributes).1) {site : Site}
    (hsite : site = siteOf request r₁ r.graph.nodes.size f tag position attributes) {e : Effect}
    (heffect : site.plan.effect = .ok e) {own : ScopeId} (requests : List Request)
    (hperform : perform (r₁.graph.modifyNode r.graph.nodes.size
      fun node => { node with payload := site.plan.payload }) r.graph.nodes.size f.scope f e =
        .ok (g', own)) :
    r.Opens { r₁ with
      graph := g'
      frames := ⟨r.graph.nodes.size, tag, own, e.childOccurs⟩ :: r₁.frames
      requests } f { r.tagNode f tag position attributes with payload := site.plan.payload } site e own := by
  have hadded := newest_addTagNode hg hstands hmay position attributes
  have hacc := Site.accepted heffect
  subst hsite hr₁
  set r₁ := (r.addTagNode (some f) tag position attributes).1 with hr₁
  set id := r.graph.nodes.size with hid
  set site := siteOf request r₁ id f tag position attributes with hsite
  set node : Node := { r.tagNode f tag position attributes with payload := site.plan.payload }
    with hnode
  set g₁ := r₁.graph.modifyNode id (fun n => { n with payload := site.plan.payload }) with hg₁
  have hwith : r.graph.Newest g₁ node := hadded.payload _
  have hself : g₁.nodeAt id = node := by
    rw [hg₁, Graph.nodeAt_modifyNode_self _ _ _ hadded.lt, nodeAt_addTagNode hstands]
  have huri : site.uri = (r.graph.namespaceAt (r.graph.scopeAt f.scope).ns).uri := by
    change r₁.graph.targetUri id = _
    rw [Graph.targetUri, nodeAt_addTagNode hstands]
    rfl
  have hroot : f.tag = .schema ∨ f.tag = .redefineDoc → (g₁.scopeAt f.scope).parent = none :=
    hstands.root
  have hglobal : ∀ reg q, e.declares = some reg → reg.space = .type → reg.name = some q →
      (g₁.scopeAt f.scope).parent = none ∧
        q.uri = (g₁.namespaceAt (g₁.scopeAt f.scope).ns).uri := by
    intro reg q hreg hspace hq
    obtain ⟨hisGlobal, hquri⟩ := hacc.global reg q hreg hspace hq
    refine ⟨hroot ?_, hquri.trans huri⟩
    simpa [Site.isGlobal, hsite, siteOf] using hisGlobal
  have hfree : g₁.Undeclared id := (hg.declared.undeclared (Nat.le_refl _)).of_scopes rfl
  obtain ⟨hsettled, hopens, hcontent⟩ :=
    hwith.perform hfree (by rw [hself]; rfl) (by rw [hself]; rfl) hstands.lt rfl hacc.fits hglobal
      (fun hred => hroot (Or.inr hred)) hperform
  refine
    { newest := hsettled.newest
      accepted := hacc
      traced := traced_opened hstands hg hsettled heffect rfl rfl rfl rfl huri rfl rfl rfl hopens
      bound := ?_
      place := ⟨rfl, rfl, rfl⟩
      occurs := rfl
      stands := stands_opened hstands hmay hsettled.newest hacc rfl rfl rfl rfl rfl hg hopens hcontent
      frames := rfl }
  rw [Node.bound, hnode]
  exact congrArg₂ (fun a b => (false, a, b)) hacc.typeNodes hacc.targets

/-- A tag within another one opens. -/
theorem openTag_opens (hg : r.graph.Sound) (hstands : f.Stands r.graph) {tag : Tag}
    (hmay : f.tag.mayContain tag) {position : Position} {attributes : List (String × String)}
    (hok : Reading.openTag request (r.addTagNode (some f) tag position attributes).1
      (r.addTagNode (some f) tag position attributes).2 f tag position attributes = .ok r') :
    ∃ node s e own, node.tag = tag ∧ r.Opens r' f node s e own := by
  obtain ⟨e, own, g', heffect, hperform, rfl⟩ := openTag_eq_ok hok
  exact ⟨_, _, e, own, rfl, opens_of_perform hg hstands hmay rfl rfl heffect _ hperform⟩

theorem Valid.openTag (h : r.Valid g₀) (hf : f ∈ r.frames) {tag : Tag}
    (hmay : f.tag.mayContain tag) {position : Position} {attributes : List (String × String)}
    (hok : Reading.openTag request (r.addTagNode (some f) tag position attributes).1
      (r.addTagNode (some f) tag position attributes).2 f tag position attributes = .ok r') :
    r'.Valid g₀ := by
  have hg := h.read.sound
  obtain ⟨hnew, hstands⟩ := h.frames f hf
  obtain ⟨node, s, e, own, _, hopens⟩ := openTag_opens hg hstands hmay hok
  refine ⟨hopens.newest.read h.read (Or.inr ⟨_, _, _, hnew, hopens.traced⟩) hopens.bound,
    fun f' hf' => ?_⟩
  rw [hopens.frames] at hf'
  rcases List.mem_cons.mp hf' with rfl | hold
  · exact ⟨h.read.ext.nodes_le, hopens.stands⟩
  · exact (h.frames f' hold).imp_right fun hf => hf.mono hg hopens.newest.ext

/-- What becomes of a document when its outermost tag opens: the document is the newest one of its
namespace, and the node of the tag stands in the root scope of the namespace. -/
structure OpensSchema (r r' : Reading) (node : Node) (document : Document) : Prop where
  newest : r.graph.Newest r'.graph node
  outermost : node.tag = .schema ∧ node.parent = none ∧ node.payload = .schema
  bound : node.bound = (false, [], [])
  ns_lt : document.ns < r'.graph.namespaces.size
  scope : node.scope = (r'.graph.namespaceAt document.ns).root
  own : (r'.graph.nodeAt r.graph.nodes.size).ownScope = some node.scope
  number : node.document = some r.graph.documents.size
  stands : (⟨r.graph.nodes.size, .schema, node.scope, .once⟩ : Frame).Stands r'.graph
  frames : r'.frames = ⟨r.graph.nodes.size, .schema, node.scope, .once⟩ :: r.frames
  documents : r'.graph.documents = r.graph.documents.push document

theorem OpensSchema.documentAt {node : Node} {document : Document}
    (h : r.OpensSchema r' node document) :
    r'.graph.documentAt r.graph.documents.size = document := by
  rw [Graph.documentAt, h.documents]
  exact (getD_push _ _ _).trans (if_pos rfl)

/-- The outermost tag opens. -/
theorem openSchema_opens (hg : r.graph.Sound)
    (hlt : Graph.schemaNamespace < r.graph.namespaces.size) (request : Request)
    (position : Position) (attributes : List (String × String)) :
    ∃ node document, r.OpensSchema
      (Reading.openSchema request (r.addTagNode none .schema position attributes).1
        (r.addTagNode none .schema position attributes).2 attributes) node document := by
  set id := r.graph.nodes.size with hid
  set node : Node := { Node.ofTag .schema (r.graph.namespaceAt Graph.schemaNamespace).root position with
    attributes, document := r.document } with hnode
  set g₁ := (r.graph.addNode node).1 with hg₁
  have h₁ : r.graph.Newest g₁ node := .addNode hg rfl rfl rfl (hg.registry.root_lt _ hlt)
  -- the namespace and the document are added
  set uri := documentUri request (attributes.lookup "targetNamespace") with huri
  set g₂ := (g₁.register uri).1 with hg₂
  set ns := (g₁.register uri).2 with hns
  have h₂ : r.graph.Newest g₂ node :=
    h₁.grow (h₁.sound.register uri) (Graph.Extends.register g₁ uri) (Graph.register_nodes g₁ uri)
  have hdocuments : g₂.documents = r.graph.documents := Graph.register_documents g₁ uri
  set document : Document :=
    { url := request.url
      ns
      route := request.route
      elementQualified := attributes.lookup "elementFormDefault" = some "qualified"
      attributeQualified := attributes.lookup "attributeFormDefault" = some "qualified" } with hdoc
  set g₃ := (g₂.addDocument document).1 with hg₃
  have h₃ : r.graph.Newest g₃ node :=
    h₂.grow (h₂.sound.addDocument document) (Graph.Extends.addDocument g₂ document) rfl
  have hnslt : ns < g₃.namespaces.size := by
    rw [hg₃, Graph.addDocument_namespaces_size]
    exact Graph.register_lt g₁ uri
  -- and the node is moved to the root of the namespace
  have h₄ := h₃.openRoot hnslt rfl rfl (some g₂.documents.size)
  have hself := Graph.nodeAt_modifyNode_self g₃ id (fun n => { n with
    document := some g₂.documents.size
    scope := (g₃.namespaceAt ns).root
    ownScope := some (g₃.namespaceAt ns).root }) h₃.lt
  have hcontent := congrArg Node.contentScope hself
  refine ⟨_, document,
    { newest := h₄
      outermost := ⟨rfl, rfl, rfl⟩
      bound := rfl
      ns_lt := hnslt
      scope := rfl
      own := congrArg Node.ownScope hself
      number := by rw [hdocuments]
      stands := ⟨h₄.lt, h₄.tag, hcontent, fun _ => h₃.sound.registry.root_parent ns hnslt,
        fun hcarries => by cases hcarries⟩
      frames := rfl
      documents := congrArg (fun documents : Array Document => documents.push document) hdocuments }⟩

theorem Valid.openSchema (h : r.Valid g₀) (position : Position)
    (attributes : List (String × String)) :
    (Reading.openSchema request (r.addTagNode none .schema position attributes).1
      (r.addTagNode none .schema position attributes).2 attributes).Valid g₀ := by
  have hg := h.read.sound
  obtain ⟨node, document, hopens⟩ :=
    openSchema_opens hg h.read.schemaNamespace_lt request position attributes
  obtain ⟨htag, _, hpayload⟩ := hopens.outermost
  have hnewest := hopens.newest
  refine ⟨hnewest.read h.read (Or.inl ⟨hnewest.tag.trans htag, ?_, ?_⟩) hopens.bound, fun f hf => ?_⟩
  · rw [hnewest.payload_eq, hpayload]
    rfl
  · rw [hopens.stands.scope]
    exact hopens.stands.root (Or.inl rfl)
  · rw [hopens.frames] at hf
    rcases List.mem_cons.mp hf with rfl | hold
    · exact ⟨h.read.ext.nodes_le, hopens.stands⟩
    · exact (h.frames f hold).imp_right fun hf => hf.mono hg hnewest.ext

/-! ## Events -/

/-- The document with the bindings of a tag that opens. -/
def within (r : Reading) (attributes : List (String × String)) : Reading :=
  { r with bindings := bindAll r.bindings attributes }

/-- What a tag that opens can do: it is passed over, perhaps with a record, or stops the document, or
is the outermost one of a document, or belongs where it stands. -/
theorem opened_cases (request : Request) (r : Reading) (position : Position) (name : String)
    (attributes : List (String × String)) :
    (∃ skipped diagnostics, r.opened request position name attributes =
      .ok { r.within attributes with skipped, graph := { r.graph with diagnostics } }) ∨
    (∃ error, r.opened request position name attributes = .error ⟨error, r.graph⟩) ∨
    (r.opened request position name attributes = .ok (openSchema request
      ((r.within attributes).addTagNode none .schema position (plainAttributes attributes)).1
      ((r.within attributes).addTagNode none .schema position (plainAttributes attributes)).2
      (plainAttributes attributes))) ∨
    ∃ f tag, f ∈ r.frames ∧ f.tag.mayContain tag ∧
      r.opened request position name attributes = openTag request
        ((r.within attributes).addTagNode (some f) tag position (plainAttributes attributes)).1
        ((r.within attributes).addTagNode (some f) tag position (plainAttributes attributes)).2
        f tag position (plainAttributes attributes) := by
  unfold Reading.opened
  extract_lets r₁ plain _ parent
  split
  · exact Or.inl ⟨_, _, rfl⟩
  split
  · exact Or.inr (Or.inl ⟨_, rfl⟩)
  split
  · exact Or.inr (Or.inl ⟨_, rfl⟩)
  · exact Or.inl ⟨_, _, rfl⟩
  · exact Or.inl ⟨_, _, rfl⟩
  · rename_i tag hadmission
    cases hhead : r₁.frames.head? with
    | none =>
      have hparent : parent = none := hhead
      rw [hhead] at hadmission
      rcases admission_eq_enter hadmission with ⟨_, rfl⟩ | ⟨p, hp, _⟩
      · rw [hparent]
        exact Or.inr (Or.inr (Or.inl rfl))
      · cases hp
    | some f =>
      have hparent : parent = some f := hhead
      rw [hhead] at hadmission
      rcases admission_eq_enter hadmission with ⟨hnone, _⟩ | ⟨p, hp, hmay⟩
      · cases hnone
      · cases hp
        rw [hparent]
        exact Or.inr (Or.inr (Or.inr ⟨f, tag, List.mem_of_head? hhead, hmay, rfl⟩))

/-- What is reported makes no difference to the graph. -/
theorem reported (hg : g.Sound) (diagnostics : List SchemaError) :
    Graph.Sound { g with diagnostics } ∧ g.Extends { g with diagnostics } :=
  ⟨hg.of_namespaces rfl rfl rfl (fun _ => rfl) (fun _ => rfl) rfl,
    Graph.Extends.of_nodes (Nat.le_refl _) (fun _ _ => rfl) rfl rfl rfl⟩

theorem Valid.opened (h : r.Valid g₀) {position : Position} {name : String}
    {attributes : List (String × String)}
    (hok : r.opened request position name attributes = .ok r') : r'.Valid g₀ := by
  have h₁ : (r.within attributes).Valid g₀ := ⟨h.read, h.frames⟩
  rcases opened_cases request r position name attributes with
    ⟨skipped, diagnostics, heq⟩ | ⟨error, heq⟩ | heq | ⟨f, tag, hf, hmay, heq⟩
  · cases heq.symm.trans hok
    obtain ⟨hsound, hext⟩ := reported h.read.sound diagnostics
    exact h.extend (h.read.extend hsound hext rfl fun _ => rfl) hext (List.Subset.refl _)
  · cases heq.symm.trans hok
  · cases heq.symm.trans hok
    exact h₁.openSchema position _
  · exact h₁.openTag hf hmay (heq.symm.trans hok)

theorem keeps_addComment (text : String) : Node.Keeps fun node => node.addComment text :=
  ⟨fun _ => rfl, fun _ => rfl, fun _ => rfl⟩

theorem keeps_addText (text : String) : Node.Keeps (addText text) := by
  constructor
  all_goals
    intro n
    unfold addText
    split
  all_goals
    first
    | rfl
    | simp [*, Node.core, Node.bound, Payload.written, Payload.typeNodes, Payload.targets]

theorem closeDocumentation_cases (g : Graph) (id : NodeId) :
    closeDocumentation g id = g ∨
      ∃ annotated text, closeDocumentation g id =
        g.modifyNode annotated fun node => node.addComment text := by
  unfold closeDocumentation
  split
  · extract_lets text
    split
    · exact Or.inl rfl
    · split
      · exact Or.inr ⟨_, _, rfl⟩
      · exact Or.inl rfl
  · exact Or.inl rfl

/-- What the innermost tag that closes, and text, can do: one node may keep more of what it is told. -/
structure Listens (r r' : Reading) : Prop where
  graph : r'.graph = r.graph ∨ ∃ id f, Node.Keeps f ∧ r'.graph = r.graph.modifyNode id f
  frames : r'.frames ⊆ r.frames
  requests : r'.requests = r.requests
  document : r'.document = r.document

theorem closed_listens (r : Reading) : r.Listens r.closed := by
  unfold Reading.closed
  split
  · exact ⟨Or.inl rfl, List.Subset.refl _, rfl, rfl⟩
  split
  · exact ⟨Or.inl rfl, List.Subset.refl _, rfl, rfl⟩
  · rename_i frame frames hframes
    have hsub : frames ⊆ r.frames := by
      rw [hframes]
      exact List.subset_cons_self _ _
    refine ⟨?_, hsub, rfl, rfl⟩
    rcases closeDocumentation_cases r.graph frame.node with heq | ⟨annotated, text, heq⟩
    · exact Or.inl heq
    · exact Or.inr ⟨annotated, _, keeps_addComment text, heq⟩

theorem text_listens (r : Reading) (content : String) : r.Listens (r.text content) := by
  unfold Reading.text
  split
  · exact ⟨Or.inl rfl, List.Subset.refl _, rfl, rfl⟩
  split
  · exact ⟨Or.inl rfl, List.Subset.refl _, rfl, rfl⟩
  · rename_i frame frames hframes
    refine ⟨Or.inr ⟨frame.node, _, keeps_addText content, rfl⟩, ?_, rfl, rfl⟩
    rw [hframes]
    exact List.Subset.refl _

theorem Valid.listens (h : r.Valid g₀) (hlistens : r.Listens r') : r'.Valid g₀ := by
  rcases hlistens.graph with heq | ⟨id, f, hf, heq⟩
  · refine ⟨?_, fun frame hframe => ?_⟩ <;> rw [heq]
    · exact h.read
    · exact h.frames frame (hlistens.frames hframe)
  · refine h.extend ?_ ?_ hlistens.frames <;> rw [heq]
    · exact h.read.modifyKeeping id hf
    · exact Graph.Extends.modifyNode _ _ hf.core

theorem step_opened (request : Request) (r : Reading) (position : Position) (name : String)
    (attributes : List (String × String)) :
    step request r (position, .opened name attributes) = r.opened request position name attributes := rfl

theorem Valid.step (h : r.Valid g₀) {event : Position × Markup.Event}
    (hok : Reading.step request r event = .ok r') : r'.Valid g₀ := by
  obtain ⟨position, event⟩ := event
  cases event with
  | opened name attributes =>
    rw [step_opened] at hok
    exact h.opened hok
  | closed =>
    cases hok
    exact h.listens r.closed_listens
  | text content =>
    cases hok
    exact h.listens (r.text_listens content)

/-! ## Documents -/

theorem finish_eq_ok {parsed : Parsed} {ending : Markup.Ending Position}
    (hok : r.finish request ending = .ok (g, parsed)) :
    g = r.graph ∧ r.document = some parsed.document ∧ parsed.requests = r.requests := by
  unfold Reading.finish at hok
  split at hok
  · cases hok
  · split at hok
    · cases hok
    · split at hok
      · cases hok
      · rename_i document hdocument
        cases hok
        exact ⟨rfl, hdocument, rfl⟩

/-- A document that has been read leaves a graph that is read. -/
theorem read_keeps {parsed : Parsed} {text : String} (h : g₀.Read g)
    (hok : Reading.read request g text = .ok (g', parsed)) : g₀.Read g' := by
  unfold Reading.read readStream at hok
  obtain ⟨r, hr, hfinish⟩ := bind_eq_ok.mp hok
  have hvalid : r.Valid g₀ := by
    refine foldlM_keeps (P := fun r => r.Valid g₀) (fun r event _ r' hr hstep => hr.step hstep) ?_ hr
    exact ⟨h, fun f hf => nomatch hf⟩
  rw [(finish_eq_ok hfinish).1]
  exact hvalid.read

end Reading

end XsdTypes
