import XsdTypes.Proofs.Schema.WellFormed

/-!
# Sound graphs

A graph is sound if its namespaces and scopes, its declarations and its tree of nodes are. Here is
one lemma for each change that reading a document makes to a graph; together they are all that later
proofs need of these invariants.
-/

namespace XsdTypes.Graph

/-- The three invariants of a graph. -/
structure Sound (g : Graph) : Prop where
  registry : g.Registry
  declared : g.Declared
  tree : g.Tree

variable {g g' : Graph}

/-- A node that no scope declares. -/
def Undeclared (g : Graph) (id : NodeId) : Prop :=
  ∀ s, ∀ d ∈ (g.scopeAt s).entries, d.node ≠ id

theorem Undeclared.of_scopes {id : NodeId} (h : g.Undeclared id) (hscopes : g'.scopes = g.scopes) :
    g'.Undeclared id := by
  intro s d hd
  rw [scopeAt, hscopes] at hd
  exact h s d hd

theorem Declared.undeclared (h : g.Declared) {id : NodeId} (hid : g.nodes.size ≤ id) :
    g.Undeclared id := fun s d hd =>
  Nat.ne_of_lt (Nat.lt_of_lt_of_le (h.entry s d hd).node_lt hid)

/-- A document changes neither the URI nor the root of its namespace. -/
theorem addDocument_namespaceAt (g : Graph) (document : Document) (i : NamespaceId) :
    ((g.addDocument document).1.namespaceAt i).uri = (g.namespaceAt i).uri ∧
      ((g.addDocument document).1.namespaceAt i).root = (g.namespaceAt i).root := by
  simp only [addDocument]
  rw [namespaceAt_modifyNamespace]
  split <;> exact ⟨rfl, rfl⟩

theorem addDocument_namespaces_size (g : Graph) (document : Document) :
    (g.addDocument document).1.namespaces.size = g.namespaces.size :=
  modifyNamespace_namespaces_size _ _ _

/-- The number that registering a namespace gives is a number of the graph. -/
theorem register_lt (g : Graph) (uri : String) :
    (g.register uri).2 < (g.register uri).1.namespaces.size := by
  rcases register_cases g uri with ⟨heq, hfind⟩ | ⟨_, hid, heq⟩
  · rw [heq]
    exact (namespaceId?_eq_some hfind).1
  · rw [hid, heq, namespaces_push_size]
    exact Nat.lt_succ_self _

namespace Sound

/-- Nodes may change in all that has nothing to do with their place and their name. -/
theorem of_nodes (h : g.Sound) (hsize : g'.nodes.size = g.nodes.size)
    (hnode : ∀ n, (g'.nodeAt n).tag = (g.nodeAt n).tag ∧
      (g'.nodeAt n).scope = (g.nodeAt n).scope ∧
      (g'.nodeAt n).ownScope = (g.nodeAt n).ownScope ∧
      (g'.nodeAt n).parent = (g.nodeAt n).parent ∧
      (g'.nodeAt n).children = (g.nodeAt n).children)
    (hname : ∀ n, ¬ g.Undeclared n → (g'.nodeAt n).name = (g.nodeAt n).name)
    (hscopes : g'.scopes = g.scopes) (hns : g'.namespaces.size = g.namespaces.size)
    (huri : ∀ i, (g'.namespaceAt i).uri = (g.namespaceAt i).uri)
    (hroot : ∀ i, (g'.namespaceAt i).root = (g.namespaceAt i).root)
    (hpolicy : g'.policy = g.policy) : g'.Sound := by
  have hscope : ∀ s, g'.scopeAt s = g.scopeAt s := fun s => by rw [scopeAt, hscopes, scopeAt]
  refine
    { registry := h.registry.congr hns (by rw [hscopes]) huri hroot (fun s => by rw [hscope])
        fun s => by rw [hscope]
      declared := h.declared.congr hpolicy (Nat.le_of_eq hsize.symm) (fun s d hd => ?_)
        (fun s => by rw [hscope]) (fun s => by rw [hscope])
        fun s hs => ⟨by rw [hscope], by rw [hscope, huri]⟩
      tree := h.tree.congr hsize hnode (Nat.le_of_eq (by rw [hscopes]))
        fun s _ => by rw [hscope] }
  exact ⟨(hnode d.node).2.1, hname d.node (fun hu => hu s d hd rfl), (hnode d.node).1⟩

theorem modifyNode (h : g.Sound) (id : NodeId) {f : Node → Node}
    (hf : ∀ n, (f n).tag = n.tag ∧ (f n).scope = n.scope ∧ (f n).ownScope = n.ownScope ∧
      (f n).parent = n.parent ∧ (f n).children = n.children)
    (hname : (∀ n, (f n).name = n.name) ∨ g.Undeclared id) : (g.modifyNode id f).Sound := by
  refine h.of_nodes (by simp) (fun n => ?_) (fun n hn => ?_) rfl rfl (fun _ => rfl) (fun _ => rfl)
    rfl
  · rw [nodeAt_modifyNode]
    split
    · exact hf _
    · exact ⟨rfl, rfl, rfl, rfl, rfl⟩
  · rw [nodeAt_modifyNode]
    split
    · rename_i hid
      rcases hname with hsame | hfree
      · exact hsame _
      · exact absurd (hid.1 ▸ hfree) hn
    · rfl

/-- Namespaces may get documents and be marked as loaded. -/
theorem of_namespaces (h : g.Sound) (hnodes : g'.nodes = g.nodes) (hscopes : g'.scopes = g.scopes)
    (hns : g'.namespaces.size = g.namespaces.size)
    (huri : ∀ i, (g'.namespaceAt i).uri = (g.namespaceAt i).uri)
    (hroot : ∀ i, (g'.namespaceAt i).root = (g.namespaceAt i).root)
    (hpolicy : g'.policy = g.policy) : g'.Sound := by
  have hnode : ∀ n, g'.nodeAt n = g.nodeAt n := fun n => by rw [nodeAt, hnodes, nodeAt]
  refine h.of_nodes (by rw [hnodes]) (fun n => ?_) (fun n _ => by rw [hnode]) hscopes hns huri hroot
    hpolicy
  rw [hnode]
  exact ⟨rfl, rfl, rfl, rfl, rfl⟩

theorem addDocument (h : g.Sound) (document : Document) : (g.addDocument document).1.Sound := by
  exact h.of_namespaces rfl rfl (addDocument_namespaces_size g document)
    (fun i => (addDocument_namespaceAt g document i).1)
    (fun i => (addDocument_namespaceAt g document i).2) rfl

/-! ## New nodes -/

theorem addNode (h : g.Sound) {node : Node} (hparent : node.parent = none)
    (hown : node.ownScope = none) (hchildren : node.children = [])
    (hscope : node.scope < g.scopes.size) : (g.addNode node).1.Sound where
  registry := h.registry.congr rfl rfl (fun _ => rfl) (fun _ => rfl) (fun _ => rfl) fun _ => rfl
  declared := h.declared.congr rfl (by simp)
    (fun s d hd => by
      rw [nodeAt_addNode_of_lt _ _ (h.declared.entry s d hd).node_lt]
      exact ⟨rfl, rfl, rfl⟩)
    (fun _ => rfl) (fun _ => rfl) fun _ _ => ⟨rfl, rfl⟩
  tree := h.tree.addNode hparent hown hchildren hscope

theorem addChild (h : g.Sound) {node : Node} {p : NodeId} (hp : p < g.nodes.size)
    (hparent : node.parent = some p) (hown : node.ownScope = none) (hchildren : node.children = [])
    (hscope : node.scope = (g.nodeAt p).contentScope)
    (hcontains : (g.nodeAt p).tag.mayContain node.tag) :
    ((g.addNode node).1.modifyNode p fun n =>
      { n with children := n.children ++ [g.nodes.size] }).Sound where
  registry := h.registry.congr rfl rfl (fun _ => rfl) (fun _ => rfl) (fun _ => rfl) fun _ => rfl
  declared := h.declared.congr rfl (by simp)
    (fun s d hd => by
      have hlt := (h.declared.entry s d hd).node_lt
      rw [nodeAt_modifyNode]
      split
      all_goals
        rw [nodeAt_addNode_of_lt _ _ hlt]
        exact ⟨rfl, rfl, rfl⟩)
    (fun _ => rfl) (fun _ => rfl) fun _ _ => ⟨rfl, rfl⟩
  tree := h.tree.addChild hp hparent hown hchildren hscope hcontains

/-! ## Declarations -/

/-- A scope whose declarations change keeps its place, and its node only gets a name. -/
theorem of_declared (h : g.Sound) (target : ScopeId) (f : Scope → Scope) {id : NodeId}
    {name : Option QName} (hg' : g'.Declared)
    (hf : ∀ s, (f s).parent = s.parent ∧ (f s).ns = s.ns)
    (hscopes : g'.scopes = g.scopes.modify target f)
    (hnodes : g'.nodes = g.nodes.modify id fun n => { n with name })
    (hnamespaces : g'.namespaces = g.namespaces) : g'.Sound := by
  have hscope : ∀ s, (g'.scopeAt s).parent = (g.scopeAt s).parent ∧
      (g'.scopeAt s).ns = (g.scopeAt s).ns := by
    intro s
    have hs : g'.scopeAt s = (g.modifyScope target f).scopeAt s := by
      rw [scopeAt, hscopes, scopeAt, Graph.modifyScope]
    rw [hs, scopeAt_modifyScope]
    split
    · exact hf _
    · exact ⟨rfl, rfl⟩
  have hnode : ∀ n, (g'.nodeAt n) = (g.modifyNode id fun n => { n with name }).nodeAt n := by
    intro n
    rw [nodeAt, hnodes, nodeAt, Graph.modifyNode]
  have hns : ∀ i, g'.namespaceAt i = g.namespaceAt i := fun i => by
    rw [namespaceAt, hnamespaces, namespaceAt]
  refine
    { registry := h.registry.congr (by rw [hnamespaces]) (by rw [hscopes, Array.size_modify])
        (fun i => by rw [hns]) (fun i => by rw [hns]) (fun s => (hscope s).1) fun s => (hscope s).2
      declared := hg'
      tree := h.tree.congr (by rw [hnodes, Array.size_modify]) (fun n => ?_)
        (Nat.le_of_eq (by rw [hscopes, Array.size_modify])) fun s _ => (hscope s).1 }
  rw [hnode, nodeAt_modifyNode]
  split <;> exact ⟨rfl, rfl, rfl, rfl, rfl⟩

/-- Declaring a new node. -/
theorem declare (h : g.Sound) {target : ScopeId} {d : Declaration}
    (hok : g.declare d target = .ok g') (hfree : g.Undeclared d.node)
    (hlt : d.node < g.nodes.size) (hscope : (g.nodeAt d.node).scope = target)
    (hfits : d.space.fits (g.nodeAt d.node).tag)
    (hglobal : d.space = .type → ∀ q, d.name = some q →
      (g.scopeAt target).parent = none ∧ q.uri = (g.namespaceAt (g.scopeAt target).ns).uri) :
    g'.Sound := by
  have hdeclared := h.declared.declare hok hfree hlt hscope hfits hglobal
  rcases declare_eq_ok hok with ⟨rfl, _⟩ | ⟨scope, hins, rfl⟩
  · exact h
  obtain ⟨rfl, _⟩ := (h.declared.indexed target).insert_eq_ok hins
  have htarget : target < g.scopes.size := hscope ▸ h.tree.scope_lt d.node hlt
  have hscopes := congrArg Graph.scopes (modifyScope_const (f := fun s => s.append d) htarget)
  exact h.of_declared target (fun s => s.append d) hdeclared (fun _ => ⟨rfl, rfl⟩) hscopes.symm rfl
    rfl

/-- Redefining a name with a new node. -/
theorem redefine (h : g.Sound) {target : ScopeId} {space : SymbolSpace} {name : QName}
    {node : NodeId} (hfree : g.Undeclared node) (hlt : node < g.nodes.size)
    (hscope : (g.nodeAt node).scope = target) (hfits : space.fits (g.nodeAt node).tag)
    (hglobal : space = .type →
      (g.scopeAt target).parent = none ∧ name.uri = (g.namespaceAt (g.scopeAt target).ns).uri) :
    (g.redefine space name node target).Sound := by
  have htarget : target < g.scopes.size := hscope ▸ h.tree.scope_lt node hlt
  refine h.of_declared target (fun s => s.replace ⟨some name, space, node, .once⟩)
    (h.declared.redefine hfree hlt hscope htarget hfits hglobal) (fun s => ?_) rfl rfl rfl
  exact ⟨s.replace_parent _, s.replace_ns _⟩

/-! ## Scopes -/

theorem register (h : g.Sound) (uri : String) : (g.register uri).1.Sound := by
  have hnode : ∀ n, (g.register uri).1.nodeAt n = g.nodeAt n := fun n => by
    rw [nodeAt, register_nodes, nodeAt]
  refine
    { registry := h.registry.register uri
      declared := h.declared.congr (register_policy g uri) (by rw [register_nodes]) (fun _ d _ => ?_)
        (entries_register g uri) (index_register g uri) fun s hs => ?_
      tree := h.tree.congr (by rw [register_nodes]) (fun n => ?_) (register_scopes_le g uri)
        fun s hs => ?_ }
  · rw [hnode]
    exact ⟨rfl, rfl, rfl⟩
  · rw [register_scopeAt_of_lt g uri hs, register_namespaceAt_of_lt g uri (h.registry.ns_lt s hs)]
    exact ⟨rfl, rfl⟩
  · rw [hnode]
    exact ⟨rfl, rfl, rfl, rfl, rfl⟩
  · rw [register_scopeAt_of_lt g uri hs]

/-- The newest node opens a scope within its own. -/
theorem openScope (h : g.Sound) {id : Nat} (hid : id + 1 = g.nodes.size) :
    ((g.addScope (some (g.nodeAt id).scope) (g.scopeAt (g.nodeAt id).scope).ns).1.modifyNode id
      fun node => { node with ownScope := some g.scopes.size }).Sound := by
  set s := (g.nodeAt id).scope with hs
  have hidlt : id < g.nodes.size := by omega
  have hslt : s < g.scopes.size := h.tree.scope_lt id hidlt
  set g₁ := (g.addScope (some s) (g.scopeAt s).ns).1 with hg₁
  have hold : ∀ t, t < g.scopes.size → g₁.scopeAt t = g.scopeAt t := fun t ht =>
    scopeAt_addScope_of_lt _ _ _ ht
  have hnew : g₁.scopeAt g.scopes.size = { parent := some s, ns := (g.scopeAt s).ns } :=
    scopeAt_addScope_self _ _ _
  have hself := nodeAt_modifyNode_self g₁ id
    (fun node => { node with ownScope := some g.scopes.size }) hidlt
  refine
    { registry := (h.registry.addScope hslt).congr rfl rfl (fun _ => rfl) (fun _ => rfl)
        (fun _ => rfl) fun _ => rfl
      declared := h.declared.congr rfl (Nat.le_of_eq (by simp [hg₁])) (fun t d _ => ?_)
        (fun t => ?_) (fun t => ?_) fun t ht => ?_
      tree := ?_ }
  · rw [nodeAt_modifyNode]
    split <;> exact ⟨rfl, rfl, rfl⟩
  · rw [scopeAt_modifyNode, hg₁, entries_addScope]
  · rw [scopeAt_modifyNode, hg₁, index_addScope]
  · rw [scopeAt_modifyNode, hold t ht]
    exact ⟨rfl, rfl⟩
  · refine h.tree.openScope g.scopes.size hid (by simp [hg₁])
      (fun n hn => nodeAt_modifyNode_ne _ _ _ hn) ?_ ?_ ?_ ?_ (Or.inl ?_) ?_ ?_ fun t ht => ?_
    · rw [hself]
      exact ⟨rfl, rfl, rfl, rfl⟩
    · rw [hself]
      exact Nat.lt_of_lt_of_le hslt (by simp [hg₁])
    · intro p _
      rw [hself]
      rfl
    · simp [hg₁]
    · rw [hself, scopeAt_modifyNode, hnew]
      rfl
    · intro _ n hn ho
      exact Nat.lt_irrefl _ (h.tree.own_lt n _ hn ho)
    · simp [hg₁]
    · rw [scopeAt_modifyNode, hold t ht]

/-- The node of a `schema` tag moves into the root scope of its namespace. -/
theorem openRoot (h : g.Sound) {id : Nat} (hid : id + 1 = g.nodes.size) {ns : NamespaceId}
    (hns : ns < g.namespaces.size) (hfree : g.Undeclared id) (htag : (g.nodeAt id).tag = .schema)
    (hparent : (g.nodeAt id).parent = none) (document : Option DocumentId) :
    (g.modifyNode id fun node => { node with
      document
      scope := (g.namespaceAt ns).root
      ownScope := some (g.namespaceAt ns).root }).Sound := by
  have hidlt : id < g.nodes.size := by omega
  have hroot := h.registry.root_lt ns hns
  have hself := nodeAt_modifyNode_self g id (fun node => { node with
    document
    scope := (g.namespaceAt ns).root
    ownScope := some (g.namespaceAt ns).root }) hidlt
  refine
    { registry := h.registry.congr rfl rfl (fun _ => rfl) (fun _ => rfl) (fun _ => rfl)
        fun _ => rfl
      declared := h.declared.congr rfl (Nat.le_of_eq (by simp)) (fun t d hd => ?_)
        (fun _ => rfl) (fun _ => rfl) fun _ _ => ⟨rfl, rfl⟩
      tree := h.tree.openScope (g.namespaceAt ns).root hid (by simp)
        (fun n hn => nodeAt_modifyNode_ne _ _ _ hn) ?_ ?_ ?_ hroot (Or.inr ?_) ?_ (Nat.le_refl _)
        fun _ _ => rfl }
  · rw [nodeAt_modifyNode_ne _ _ _ (hfree t d hd)]
    exact ⟨rfl, rfl, rfl⟩
  · rw [hself]
    exact ⟨rfl, rfl, rfl, rfl⟩
  · rw [hself]
    exact hroot
  · intro p hp
    rw [hparent] at hp
    cases hp
  · rw [hself]
    exact ⟨h.registry.root_parent ns hns, rfl, htag⟩
  · intro hp
    exact absurd (h.registry.root_parent ns hns) hp

end Sound

end XsdTypes.Graph
