import XsdTypes.Proofs.Schema.Binding
import XsdTypes.Proofs.Schema.Documents

/-!
# Graphs that reading leaves behind

A document may stop at any tag, and the graph that it leaves is used nevertheless. What is said here
of graphs (`Intact`) holds after every event of a document, and it holds where a document stops,
because a tag that is refused has done nothing yet but add its node. So it holds of all graphs that
documents are read into and whose names are bound, one after the other, whether this succeeds or not.
-/

namespace XsdTypes

open Sequencing

/-- The tags that may stand in the root scope of a namespace without a scope of their own, and
`schema`. -/
def Tag.isOuter : Tag → Bool
  | .schema | .importDoc | .includeDoc | .redefineDoc | .note | .documentation | .appinfo
  | .notationDecl => true
  | _ => false

/-- What opens no scope in such a tag is such a tag. -/
theorem Tag.isOuter_of_mayContain {p t : Tag} (hp : p.isOuter = true) (hmay : p.mayContain t = true)
    (hopens : t.opens (p = .schema || p = .redefineDoc) = false) : t.isOuter = true := by
  cases p <;> try exact absurd hp (by decide)
  all_goals cases t <;> first | rfl | exact absurd hmay (by decide) | exact absurd hopens (by decide)

/-- What is declared in such a tag is declared in `schema` or `redefine`. -/
theorem Tag.eq_of_isOuter {p t : Tag} (hp : p.isOuter = true) (hmay : p.mayContain t = true)
    {space : SymbolSpace} (hfits : space.fits t = true) : p = .schema ∨ p = .redefineDoc := by
  cases p <;> first | exact Or.inl rfl | exact Or.inr rfl | exact absurd hp (by decide) | skip
  all_goals cases t <;> try exact absurd hmay (by decide)
  all_goals cases space <;> exact absurd hfits (by decide)

theorem document_eq_of_core {n n' : Node} (h : n'.core = n.core) : n'.document = n.document := by
  have hcore := congrArg Node.document h
  exact hcore

namespace Graph

/-- Where the nodes of documents stand, which are the nodes from `first` on. -/
structure Placed (first : Nat) (g : Graph) : Prop where
  outermost : ∀ n, first ≤ n → n < g.nodes.size → (g.nodeAt n).parent = none →
    (g.nodeAt n).tag = .schema
  /-- The content of a document stands in the root scope of its namespace. -/
  schema : ∀ n, n < g.nodes.size → (g.nodeAt n).tag = .schema → ∃ d,
    (g.nodeAt n).document = some d ∧ d < g.documents.size ∧
      (g.nodeAt n).scope = (g.namespaceAt (g.documentAt d).ns).root ∧
      (g.nodeAt n).ownScope = some (g.nodeAt n).scope
  global : ∀ n p : Nat, n < g.nodes.size → (g.nodeAt n).parent = some p →
    (g.scopeAt (g.nodeAt n).scope).parent = none → (g.nodeAt p).tag.isOuter = true

/-- All that a graph keeps while documents are read into it. -/
structure Intact (first : Nat) (g : Graph) : Prop where
  sound : g.Sound
  catalogued : g.Catalogued
  placed : g.Placed first
  schemaNamespace_lt : schemaNamespace < g.namespaces.size

variable {g g' : Graph} {first : Nat}

/-- The nodes that are there keep their places. -/
theorem Placed.old (h : g.Placed first) (hg : g.Sound) (hcatalogued : g.Catalogued)
    (hext : g.Extends g') (hfollows : g.Follows g') {n : NodeId} (hn : n < g.nodes.size) :
    (first ≤ n → (g'.nodeAt n).parent = none → (g'.nodeAt n).tag = .schema) ∧
      ((g'.nodeAt n).tag = .schema → ∃ d, (g'.nodeAt n).document = some d ∧
        d < g'.documents.size ∧ (g'.nodeAt n).scope = (g'.namespaceAt (g'.documentAt d).ns).root ∧
        (g'.nodeAt n).ownScope = some (g'.nodeAt n).scope) ∧
      ∀ p, (g'.nodeAt n).parent = some p → (g'.scopeAt (g'.nodeAt n).scope).parent = none →
        (g'.nodeAt p).tag.isOuter = true := by
  have hcore := hext.core n hn
  rw [parent_eq_of_core hcore, tag_eq_of_core hcore, document_eq_of_core hcore,
    scope_eq_of_core hcore, ownScope_eq_of_core hcore]
  refine ⟨fun hfirst => h.outermost n hfirst hn, fun htag => ?_, fun p hp hroot => ?_⟩
  · obtain ⟨d, hdocument, hd, hscope, hown⟩ := h.schema n hn htag
    refine ⟨d, hdocument, Nat.lt_of_lt_of_le hd hfollows.documents_le, ?_, hown⟩
    rw [hfollows.document d hd, hext.root _ (hcatalogued.ns_lt d hd)]
    exact hscope
  · rw [hext.scope_parent _ (hg.tree.scope_lt n hn)] at hroot
    rw [hext.tag (Nat.lt_trans (hg.tree.parent_lt n p hn hp) hn)]
    exact h.global n p hn hp hroot

/-- A node that is new has a place of its own. -/
theorem Placed.newest (h : g.Placed first) (hg : g.Sound) (hcatalogued : g.Catalogued)
    {node : Node} (hnew : g.Newest g' node) (hfollows : g.Follows g')
    (houtermost : node.parent = none → node.tag = .schema)
    (hschema : node.tag = .schema → ∃ d, (g'.nodeAt g.nodes.size).document = some d ∧
      d < g'.documents.size ∧ node.scope = (g'.namespaceAt (g'.documentAt d).ns).root ∧
      (g'.nodeAt g.nodes.size).ownScope = some node.scope)
    (hglobal : ∀ p, node.parent = some p → (g'.scopeAt node.scope).parent = none →
      (g'.nodeAt p).tag.isOuter = true) : g'.Placed first := by
  have hold := fun n hn => h.old hg hcatalogued hnew.ext hfollows (n := n) hn
  have hcases : ∀ n, n < g'.nodes.size → n < g.nodes.size ∨ n = g.nodes.size := by
    intro n hn
    rw [hnew.size] at hn
    exact Nat.lt_or_eq_of_le (Nat.le_of_lt_succ hn)
  refine ⟨fun n hfirst hn => ?_, fun n hn => ?_, fun n p hn => ?_⟩
  all_goals rcases hcases n hn with hlt | rfl
  · exact (hold n hlt).1 hfirst
  · rw [hnew.parent, hnew.tag]
    exact houtermost
  · exact (hold n hlt).2.1
  · rw [hnew.tag, hnew.scope]
    exact hschema
  · exact (hold n hlt).2.2 p
  · rw [hnew.parent, hnew.scope]
    exact hglobal p

namespace Intact

/-- Nothing new is read. -/
theorem extend (h : g.Intact first) (hsound : g'.Sound) (hext : g.Extends g')
    (hcatalogued : g'.Catalogued) (hfollows : g.Follows g') (hsize : g'.nodes.size = g.nodes.size) :
    g'.Intact first where
  sound := hsound
  catalogued := hcatalogued
  placed := by
    have hold := fun n hn => h.placed.old h.sound h.catalogued hext hfollows (n := n) hn
    refine ⟨fun n hfirst hn => ?_, fun n hn => ?_, fun n p hn => ?_⟩
    all_goals rw [hsize] at hn
    · exact (hold n hn).1 hfirst
    · exact (hold n hn).2.1
    · exact (hold n hn).2.2 p
  schemaNamespace_lt := Nat.lt_of_lt_of_le h.schemaNamespace_lt hext.namespaces_le

theorem register (h : g.Intact first) (uri : String) : (g.register uri).1.Intact first :=
  h.extend (h.sound.register uri) (Extends.register g uri) (h.catalogued.register uri)
    (Follows.register g uri) (by rw [register_nodes])

/-- A node may change in all that has nothing to do with its place. -/
theorem modifyNode (h : g.Intact first) (id : NodeId) {f : Node → Node}
    (hcore : (f (g.nodeAt id)).core = (g.nodeAt id).core)
    (hchildren : (f (g.nodeAt id)).children = (g.nodeAt id).children) :
    (g.modifyNode id f).Intact first := by
  have hnode : ∀ n, ((g.modifyNode id f).nodeAt n).core = (g.nodeAt n).core ∧
      ((g.modifyNode id f).nodeAt n).children = (g.nodeAt n).children := by
    intro n
    rw [nodeAt_modifyNode]
    split
    · rename_i hid
      rw [hid.1]
      exact ⟨hcore, hchildren⟩
    · exact ⟨rfl, rfl⟩
  refine h.extend (h.sound.of_nodes (by simp) (fun n => ?_) (fun n _ => name_eq_of_core (hnode n).1)
    rfl rfl (fun _ => rfl) (fun _ => rfl) rfl)
    (Extends.of_nodes (Nat.le_of_eq (by simp)) (fun n _ => (hnode n).1) rfl rfl rfl)
    (h.catalogued.congr rfl rfl fun _ => rfl) (.of_eq rfl rfl) (by simp)
  obtain ⟨hcore, hchildren⟩ := hnode n
  exact ⟨tag_eq_of_core hcore, scope_eq_of_core hcore, ownScope_eq_of_core hcore,
    parent_eq_of_core hcore, hchildren⟩

/-- A node is added within another one. -/
theorem newest (h : g.Intact first) {node : Node} (hnew : g.Newest g' node) {p : NodeId}
    (hparent : node.parent = some p) (hp : p < g.nodes.size) (htag : node.tag ≠ .schema)
    (hscope : node.scope < g.scopes.size)
    (houter : (g.scopeAt node.scope).parent = none → (g.nodeAt p).tag.isOuter = true)
    (hdocuments : g'.documents = g.documents) (hnamespaces : g'.namespaces = g.namespaces) :
    g'.Intact first where
  sound := hnew.sound
  catalogued := h.catalogued.congr hdocuments (by rw [hnamespaces])
    fun i => by rw [namespaceAt, hnamespaces, namespaceAt]
  placed := by
    refine h.placed.newest h.sound h.catalogued hnew (.of_eq hdocuments hnamespaces)
      (fun hnone => ?_) (fun hschema => absurd hschema htag) fun q hq hroot => ?_
    · rw [hparent] at hnone
      cases hnone
    · rw [hparent] at hq
      cases hq
      rw [hnew.ext.scope_parent _ hscope] at hroot
      rw [hnew.ext.tag hp]
      exact houter hroot
  schemaNamespace_lt := Nat.lt_of_lt_of_le h.schemaNamespace_lt hnew.ext.namespaces_le

end Intact

end Graph

namespace Reading

/-! ## Reading a document -/

variable {r r' : Reading} {request : Request} {f : Frame} {first : Nat}

/-- The graph and the open tags, after every event of a document. -/
structure Intact (first : Nat) (r : Reading) : Prop where
  graph : r.graph.Intact first
  stands : ∀ f ∈ r.frames, f.Stands r.graph
  outer : ∀ f ∈ r.frames, (r.graph.scopeAt f.scope).parent = none → f.tag.isOuter = true

namespace Intact

/-- Nothing has been read yet. -/
theorem start {g : Graph} (h : g.Intact first) : ({ graph := g } : Reading).Intact first :=
  ⟨h, fun _ hf => absurd hf List.not_mem_nil, fun _ hf => absurd hf List.not_mem_nil⟩

/-- The graph grows and no tag opens. -/
theorem extend (h : r.Intact first) (hgraph : r'.graph.Intact first)
    (hext : r.graph.Extends r'.graph) (hframes : r'.frames ⊆ r.frames) : r'.Intact first where
  graph := hgraph
  stands f hf := (h.stands f (hframes hf)).mono h.graph.sound hext
  outer f hf hroot := by
    have hlt := (h.stands f (hframes hf)).scope_lt h.graph.sound
    rw [hext.scope_parent _ hlt] at hroot
    exact h.outer f (hframes hf) hroot

/-- One more tag is open. -/
theorem push (h : r.Intact first) (hgraph : r'.graph.Intact first)
    (hext : r.graph.Extends r'.graph) (hframes : r'.frames = f :: r.frames)
    (hstands : f.Stands r'.graph)
    (houter : (r'.graph.scopeAt f.scope).parent = none → f.tag.isOuter = true) :
    r'.Intact first := by
  have hrest : ({ r' with frames := r.frames } : Reading).Intact first :=
    h.extend hgraph hext (List.Subset.refl _)
  refine ⟨hgraph, fun f' hf' => ?_, fun f' hf' => ?_⟩
  all_goals
    rw [hframes] at hf'
    rcases List.mem_cons.mp hf' with rfl | hold
  · exact hstands
  · exact hrest.stands f' hold
  · exact houter
  · exact hrest.outer f' hold

/-- The node of a tag that has not opened yet. -/
theorem newest (h : r.Intact first) (hf : f ∈ r.frames) {g : Graph} {node : Node}
    (hnew : r.graph.Newest g node) (hparent : node.parent = some f.node)
    (hscope : node.scope = f.scope) (hmay : f.tag.mayContain node.tag)
    (hdocuments : g.documents = r.graph.documents)
    (hnamespaces : g.namespaces = r.graph.namespaces) : g.Intact first := by
  have hstands := h.stands f hf
  refine h.graph.newest hnew hparent hstands.lt (fun htag => ?_) ?_ (fun hroot => ?_) hdocuments
    hnamespaces
  · rw [htag, not_mayContain_schema] at hmay
    cases hmay
  · rw [hscope]
    exact hstands.scope_lt h.graph.sound
  · rw [hstands.tag]
    exact h.outer f hf (hscope ▸ hroot)

end Intact

theorem openTag_eq_error {id : NodeId} {tag : Tag} {position : Position}
    {attributes : List (String × String)} {halt : Halt}
    (herror : openTag request r id f tag position attributes = .error halt) :
    ∃ payload, halt.graph = r.graph.modifyNode id fun node => { node with payload } := by
  unfold openTag at herror
  extract_lets document site plan graph at herror
  split at herror
  · cases herror
    exact ⟨_, rfl⟩
  · rename_i e heffect
    split at herror
    · rename_i halt' hperform
      cases herror
      exact ⟨_, Graph.graph_eq_of_perform_eq_error (Site.accepted heffect).alone hperform⟩
    · cases herror

/-- Content in a root scope stands in a tag that may be there. -/
theorem Opens.outer {node : Node} {s : Site} {e : Effect} {own : ScopeId}
    (h : r.Opens r' f node s e own) (hr : r.Intact first) (hf : f ∈ r.frames)
    (hmay : f.tag.mayContain node.tag) (hroot : (r'.graph.scopeAt own).parent = none) :
    node.tag.isOuter = true := by
  obtain ⟨_, hscope, hparentTag⟩ := h.place
  have hcontent : (r'.graph.nodeAt r.graph.nodes.size).contentScope = own := h.stands.scope
  cases hown : (r'.graph.nodeAt r.graph.nodes.size).ownScope with
  | some s =>
    rw [Node.contentScope, hown] at hcontent
    change s = own at hcontent
    rcases h.newest.sound.tree.own_parent _ s h.newest.lt hown with hparent | ⟨_, _, htag⟩
    · rw [hcontent, hroot] at hparent
      cases hparent
    · rw [h.newest.tag.symm.trans htag, not_mayContain_schema] at hmay
      cases hmay
  | none =>
    rw [Node.contentScope, hown] at hcontent
    have hown' : own = f.scope := hcontent.symm.trans (h.newest.scope.trans hscope)
    have hopens : node.tag.opens (f.tag = .schema || f.tag = .redefineDoc) = false := by
      have htraced := h.traced.opens
      rw [hown, h.accepted.opens, h.traced.tag, h.newest.tag, Site.isGlobal, hparentTag] at htraced
      simpa using htraced.symm
    refine Tag.isOuter_of_mayContain (hr.outer f hf ?_) hmay hopens
    rw [hown', h.newest.ext.scope_parent _ ((hr.stands f hf).scope_lt hr.graph.sound)] at hroot
    exact hroot

namespace Intact

/-- A tag within another one opens or stops the document. -/
theorem openTag (h : r.Intact first) (hf : f ∈ r.frames) {tag : Tag}
    (hmay : f.tag.mayContain tag) (request : Request) (position : Position)
    (attributes : List (String × String)) :
    Yields (Intact first) (fun halt => halt.graph.Intact first)
      (Reading.openTag request (r.addTagNode (some f) tag position attributes).1
        (r.addTagNode (some f) tag position attributes).2 f tag position attributes) := by
  have hg := h.graph.sound
  have hstands := h.stands f hf
  cases hresult : Reading.openTag request (r.addTagNode (some f) tag position attributes).1
      (r.addTagNode (some f) tag position attributes).2 f tag position attributes with
  | ok r' =>
    obtain ⟨node, s, e, own, rfl, hopens⟩ := openTag_opens hg hstands hmay hresult
    obtain ⟨hcontinues, _⟩ := openTag_continues hresult
    have hgraph := h.newest hf hopens.newest hopens.place.1 hopens.place.2.1 hmay
      hcontinues.documents hcontinues.namespaces
    exact h.push hgraph hopens.newest.ext hopens.frames hopens.stands (hopens.outer h hf hmay)
  | error halt =>
    obtain ⟨payload, heq⟩ := openTag_eq_error hresult
    have hadded := newest_addTagNode hg hstands hmay position attributes
    change halt.graph.Intact first
    rw [heq]
    exact h.newest hf (hadded.payload payload) rfl rfl hmay rfl rfl

/-- The outermost tag opens. -/
theorem openSchema (h : r.Intact first) (request : Request) (position : Position)
    (attributes : List (String × String)) :
    (Reading.openSchema request (r.addTagNode none .schema position attributes).1
      (r.addTagNode none .schema position attributes).2 attributes).Intact first := by
  obtain ⟨node, document, hopens⟩ :=
    openSchema_opens h.graph.sound h.graph.schemaNamespace_lt request position attributes
  obtain ⟨_, hbegins⟩ := openSchema_begins r request position attributes
  set r' := Reading.openSchema request (r.addTagNode none .schema position attributes).1
    (r.addTagNode none .schema position attributes).2 attributes with hr'
  have hnewest := hopens.newest
  have hself : (r'.graph.nodeAt r.graph.nodes.size).document = some r.graph.documents.size := by
    rw [← hopens.number, ← hnewest.node_eq]
    rfl
  refine h.push ⟨hnewest.sound, hbegins.catalogued h.graph.catalogued, ?_,
    Nat.lt_of_lt_of_le h.graph.schemaNamespace_lt hnewest.ext.namespaces_le⟩ hnewest.ext
    hopens.frames hopens.stands fun _ => rfl
  refine h.graph.placed.newest h.graph.sound h.graph.catalogued hnewest hbegins.follows
    (fun _ => hopens.outermost.1) (fun _ => ?_) fun p hparent => ?_
  · refine ⟨r.graph.documents.size, hself, ?_, ?_, hopens.own⟩
    · rw [hopens.documents, Array.size_push]
      exact Nat.lt_succ_self _
    · rw [hopens.documentAt]
      exact hopens.scope
  · rw [hopens.outermost.2.1] at hparent
    cases hparent

theorem listens (h : r.Intact first) (hlistens : r.Listens r') : r'.Intact first := by
  rcases hlistens.graph with heq | ⟨id, f, hf, heq⟩
  · refine h.extend ?_ ?_ hlistens.frames <;> rw [heq]
    · exact h.graph
    · exact Graph.Extends.refl _
  · refine h.extend ?_ ?_ hlistens.frames <;> rw [heq]
    · exact h.graph.modifyNode id (hf.core _) (hf.children _)
    · exact Graph.Extends.modifyNode _ _ hf.core

/-- One event of a document. -/
theorem step (h : r.Intact first) (request : Request) (event : Position × Markup.Event) :
    Yields (Intact first) (fun halt => halt.graph.Intact first)
      (Reading.step request r event) := by
  obtain ⟨position, event⟩ := event
  cases event with
  | opened name attributes =>
    have h₁ : (r.within attributes).Intact first := ⟨h.graph, h.stands, h.outer⟩
    change Yields _ _ (r.opened request position name attributes)
    rcases opened_cases request r position name attributes with
      ⟨skipped, diagnostics, heq⟩ | ⟨error, heq⟩ | heq | ⟨f, tag, hf, hmay, heq⟩ <;> rw [heq]
    · obtain ⟨hsound, hext⟩ := reported h.graph.sound diagnostics
      exact h.extend (h.graph.extend hsound hext (h.graph.catalogued.congr rfl rfl fun _ => rfl)
        (.of_eq rfl rfl) rfl) hext (List.Subset.refl _)
    · exact h.graph
    · exact h₁.openSchema request position _
    · exact h₁.openTag hf hmay request position _
  | closed => exact h.listens r.closed_listens
  | text content => exact h.listens (r.text_listens content)

end Intact

/-- A document that is read, or that stops, leaves the graph intact. -/
theorem read_intact {g : Graph} (h : g.Intact first) (request : Request) (text : String) :
    Yields (fun result => result.1.Intact first) (fun halt => halt.graph.Intact first)
      (Reading.read request g text) := by
  refine (Yields.foldlM (fun r event hr => hr.step request event) _ (Intact.start h)).bind
    fun r hr => ?_
  unfold Reading.finish
  split
  · exact hr.graph
  split
  · exact hr.graph
  split
  · exact hr.graph
  · exact hr.graph

end Reading

end XsdTypes
