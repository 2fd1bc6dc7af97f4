import XsdTypes.Proofs.Schema.Sound

/-!
# Graphs grow

While documents are read and references are bound, a graph only grows: what a node was when its tag
had opened stays, apart from its children, its documentation and what is collected in it from the
tags within, and declarations in scopes other than root scopes stay too. In a root scope a
declaration may be redefined, but its name remains declared. `Extends` says so, and every change of
a graph that is made while loading is an extension.
-/

namespace XsdTypes

/-- What the attributes of a tag say of its payload: without the nodes that names are bound to, and
without what the tags within contribute. -/
def Payload.written : Payload → Payload
  | .documentation _ => .documentation ""
  | .element a => .element { a with typeNode := none, target := none }
  | .attr a prohibited => .attr { a with typeNode := none, target := none } prohibited
  | .complexType _ isAbstract => .complexType false isAbstract
  | .group refName _ => .group refName none
  | .derivation d => .derivation { d with baseNode := none, enumerations := [] }
  | .list itemType _ => .list itemType none
  | .union memberTypes _ => .union memberTypes []
  | payload => payload

/-- The types that a payload has been bound to. -/
def Payload.typeNodes : Payload → List NodeId
  | .element a | .attr a _ => a.typeNode.toList
  | .derivation d => d.baseNode.toList
  | .list _ itemNode => itemNode.toList
  | .union _ memberNodes => memberNodes
  | _ => []

/-- The declarations other than types that a payload has been bound to. -/
def Payload.targets : Payload → List NodeId
  | .element a | .attr a _ => a.target.toList
  | .group _ target => target.toList
  | _ => []

/-- What stays of a node once its tag has opened. -/
def Node.core (n : Node) : Node :=
  { n with payload := n.payload.written, children := [], comment := none, resolved := false }

section Core

variable {n n' : Node}

theorem tag_eq_of_core (h : n'.core = n.core) : n'.tag = n.tag := by
  have hcore := congrArg Node.tag h
  exact hcore

theorem written_eq_of_core (h : n'.core = n.core) : n'.payload.written = n.payload.written :=
  congrArg Node.payload h

theorem parent_eq_of_core (h : n'.core = n.core) : n'.parent = n.parent := by
  have hcore := congrArg Node.parent h
  exact hcore

theorem scope_eq_of_core (h : n'.core = n.core) : n'.scope = n.scope := by
  have hcore := congrArg Node.scope h
  exact hcore

theorem ownScope_eq_of_core (h : n'.core = n.core) : n'.ownScope = n.ownScope := by
  have hcore := congrArg Node.ownScope h
  exact hcore

theorem contentScope_eq_of_core (h : n'.core = n.core) : n'.contentScope = n.contentScope := by
  rw [Node.contentScope, ownScope_eq_of_core h, scope_eq_of_core h, Node.contentScope]

theorem name_eq_of_core (h : n'.core = n.core) : n'.name = n.name := by
  have hcore := congrArg Node.name h
  exact hcore

theorem attributes_eq_of_core (h : n'.core = n.core) : n'.attributes = n.attributes := by
  have hcore := congrArg Node.attributes h
  exact hcore

end Core

namespace Graph

/-- One graph is the other with more in it. -/
structure Extends (g g' : Graph) : Prop where
  nodes_le : g.nodes.size ≤ g'.nodes.size
  scopes_le : g.scopes.size ≤ g'.scopes.size
  namespaces_le : g.namespaces.size ≤ g'.namespaces.size
  core : ∀ n, n < g.nodes.size → (g'.nodeAt n).core = (g.nodeAt n).core
  scope_parent : ∀ s, s < g.scopes.size → (g'.scopeAt s).parent = (g.scopeAt s).parent
  scope_ns : ∀ s, s < g.scopes.size → (g'.scopeAt s).ns = (g.scopeAt s).ns
  /-- Outside root scopes declarations stay. -/
  entries : ∀ s, (g.scopeAt s).parent ≠ none → (g.scopeAt s).entries ⊆ (g'.scopeAt s).entries
  /-- A name that is declared stays declared. -/
  symbols : ∀ s, ∀ d ∈ (g.scopeAt s).entries, d.symbol?.isSome →
    ∃ d' ∈ (g'.scopeAt s).entries, d'.symbol? = d.symbol?
  /-- Only new nodes get declared. -/
  fresh : ∀ s, ∀ d ∈ (g'.scopeAt s).entries, d ∈ (g.scopeAt s).entries ∨ g.nodes.size ≤ d.node
  uri : ∀ i, i < g.namespaces.size → (g'.namespaceAt i).uri = (g.namespaceAt i).uri
  root : ∀ i, i < g.namespaces.size → (g'.namespaceAt i).root = (g.namespaceAt i).root
  policy : g'.policy = g.policy

variable {g g' g'' : Graph}

namespace Extends

theorem refl (g : Graph) : g.Extends g where
  nodes_le := Nat.le_refl _
  scopes_le := Nat.le_refl _
  namespaces_le := Nat.le_refl _
  core _ _ := rfl
  scope_parent _ _ := rfl
  scope_ns _ _ := rfl
  entries _ _ := List.Subset.refl _
  symbols _ d hd _ := ⟨d, hd, rfl⟩
  fresh _ _ hd := Or.inl hd
  uri _ _ := rfl
  root _ _ := rfl
  policy := rfl

/-- A scope that is not a root scope is a scope of the graph. -/
theorem scope_lt_of_parent {s : ScopeId} (h : (g.scopeAt s).parent ≠ none) : s < g.scopes.size := by
  by_contra hge
  rw [scopeAt_of_size_le (Nat.le_of_not_lt hge)] at h
  exact h rfl

theorem trans (h : g.Extends g') (h' : g'.Extends g'') : g.Extends g'' where
  nodes_le := Nat.le_trans h.nodes_le h'.nodes_le
  scopes_le := Nat.le_trans h.scopes_le h'.scopes_le
  namespaces_le := Nat.le_trans h.namespaces_le h'.namespaces_le
  core n hn := (h'.core n (Nat.lt_of_lt_of_le hn h.nodes_le)).trans (h.core n hn)
  scope_parent s hs := (h'.scope_parent s (Nat.lt_of_lt_of_le hs h.scopes_le)).trans
    (h.scope_parent s hs)
  scope_ns s hs := (h'.scope_ns s (Nat.lt_of_lt_of_le hs h.scopes_le)).trans (h.scope_ns s hs)
  entries s hs := by
    refine List.Subset.trans (h.entries s hs) (h'.entries s ?_)
    rw [h.scope_parent s (scope_lt_of_parent hs)]
    exact hs
  symbols s d hd hsome := by
    obtain ⟨d', hd', heq⟩ := h.symbols s d hd hsome
    obtain ⟨d'', hd'', heq'⟩ := h'.symbols s d' hd' (heq ▸ hsome)
    exact ⟨d'', hd'', heq'.trans heq⟩
  fresh s d hd := by
    rcases h'.fresh s d hd with hd' | hnew
    · exact h.fresh s d hd'
    · exact Or.inr (Nat.le_trans h.nodes_le hnew)
  uri i hi := (h'.uri i (Nat.lt_of_lt_of_le hi h.namespaces_le)).trans (h.uri i hi)
  root i hi := (h'.root i (Nat.lt_of_lt_of_le hi h.namespaces_le)).trans (h.root i hi)
  policy := h'.policy.trans h.policy

/-- Whatever happens to nodes that are not there yet is an extension. -/
theorem of_nodes (hnodes : g.nodes.size ≤ g'.nodes.size)
    (hcore : ∀ n, n < g.nodes.size → (g'.nodeAt n).core = (g.nodeAt n).core)
    (hscopes : g'.scopes = g.scopes) (hns : g'.namespaces = g.namespaces)
    (hpolicy : g'.policy = g.policy) : g.Extends g' := by
  have hscope : ∀ s, g'.scopeAt s = g.scopeAt s := fun s => by rw [scopeAt, hscopes, scopeAt]
  have hname : ∀ i, g'.namespaceAt i = g.namespaceAt i := fun i => by
    rw [namespaceAt, hns, namespaceAt]
  refine
    { nodes_le := hnodes
      scopes_le := Nat.le_of_eq (by rw [hscopes])
      namespaces_le := Nat.le_of_eq (by rw [hns])
      core := hcore
      scope_parent := fun s _ => by rw [hscope]
      scope_ns := fun s _ => by rw [hscope]
      entries := fun s _ => by rw [hscope]; exact List.Subset.refl _
      symbols := fun s d hd _ => ⟨d, by rw [hscope]; exact hd, rfl⟩
      fresh := fun s d hd => Or.inl (by rw [hscope] at hd; exact hd)
      uri := fun i _ => by rw [hname]
      root := fun i _ => by rw [hname]
      policy := hpolicy }

theorem modifyNode (g : Graph) (id : NodeId) {f : Node → Node} (hf : ∀ n, (f n).core = n.core) :
    g.Extends (g.modifyNode id f) := by
  refine of_nodes (by simp) (fun n _ => ?_) rfl rfl rfl
  rw [nodeAt_modifyNode]
  split
  · exact hf _
  · rfl

/-- A node that is not in the older graph may change in any way. -/
theorem modifyNew (h : g.Extends g') {id : NodeId} (hid : g.nodes.size ≤ id) (f : Node → Node) :
    g.Extends (g'.modifyNode id f) := by
  refine { h with nodes_le := ?_, core := fun n hn => ?_ }
  · rw [modifyNode_nodes_size]
    exact h.nodes_le
  · rw [nodeAt_modifyNode_ne _ _ _ (Nat.ne_of_lt (Nat.lt_of_lt_of_le hn hid))]
    exact h.core n hn

theorem addNode (g : Graph) (node : Node) : g.Extends (g.addNode node).1 := by
  refine of_nodes (by simp) (fun n hn => ?_) rfl rfl rfl
  rw [nodeAt_addNode_of_lt _ _ hn]

theorem addScope (g : Graph) (parent : Option ScopeId) (ns : NamespaceId) :
    g.Extends (g.addScope parent ns).1 where
  nodes_le := Nat.le_refl _
  scopes_le := by rw [addScope_scopes_size]; exact Nat.le_succ _
  namespaces_le := Nat.le_refl _
  core _ _ := rfl
  scope_parent s hs := by rw [scopeAt_addScope_of_lt _ _ _ hs]
  scope_ns s hs := by rw [scopeAt_addScope_of_lt _ _ _ hs]
  entries s hs := by
    rw [scopeAt_addScope_of_lt _ _ _ (scope_lt_of_parent hs)]
    exact List.Subset.refl _
  symbols s d hd _ := by
    refine ⟨d, ?_, rfl⟩
    rw [scopeAt_addScope_of_lt _ _ _ (scope_lt_of_mem hd)]
    exact hd
  fresh s d hd := by
    rw [scopeAt_addScope] at hd
    split at hd
    · cases hd
    · exact Or.inl hd
  uri _ _ := rfl
  root _ _ := rfl
  policy := rfl

/-- Namespaces may get documents and be marked as loaded. -/
theorem of_namespaces (hsize : g'.namespaces.size = g.namespaces.size)
    (huri : ∀ i, (g'.namespaceAt i).uri = (g.namespaceAt i).uri)
    (hroot : ∀ i, (g'.namespaceAt i).root = (g.namespaceAt i).root)
    (hnodes : g'.nodes = g.nodes) (hscopes : g'.scopes = g.scopes)
    (hpolicy : g'.policy = g.policy) : g.Extends g' := by
  have hscope : ∀ s, g'.scopeAt s = g.scopeAt s := fun s => by rw [scopeAt, hscopes, scopeAt]
  refine
    { nodes_le := Nat.le_of_eq (by rw [hnodes])
      scopes_le := Nat.le_of_eq (by rw [hscopes])
      namespaces_le := Nat.le_of_eq hsize.symm
      core := fun n _ => by rw [nodeAt, hnodes, nodeAt]
      scope_parent := fun s _ => by rw [hscope]
      scope_ns := fun s _ => by rw [hscope]
      entries := fun s _ => by rw [hscope]; exact List.Subset.refl _
      symbols := fun s d hd _ => ⟨d, by rw [hscope]; exact hd, rfl⟩
      fresh := fun s d hd => Or.inl (by rw [hscope] at hd; exact hd)
      uri := fun i _ => huri i
      root := fun i _ => hroot i
      policy := hpolicy }

theorem addDocument (g : Graph) (document : Document) : g.Extends (g.addDocument document).1 :=
  of_namespaces (addDocument_namespaces_size g document)
    (fun i => (addDocument_namespaceAt g document i).1)
    (fun i => (addDocument_namespaceAt g document i).2) rfl rfl rfl

theorem register (g : Graph) (uri : String) : g.Extends (g.register uri).1 where
  nodes_le := by rw [register_nodes]
  scopes_le := register_scopes_le g uri
  namespaces_le := register_namespaces_le g uri
  core n _ := by rw [nodeAt, register_nodes, nodeAt]
  scope_parent s hs := by rw [register_scopeAt_of_lt g uri hs]
  scope_ns s hs := by rw [register_scopeAt_of_lt g uri hs]
  entries s _ := by
    rw [entries_register]
    exact List.Subset.refl _
  symbols s d hd _ := ⟨d, by rwa [entries_register], rfl⟩
  fresh s d hd := by
    rw [entries_register] at hd
    exact Or.inl hd
  uri i hi := by rw [register_namespaceAt_of_lt g uri hi]
  root i hi := by rw [register_namespaceAt_of_lt g uri hi]
  policy := register_policy g uri

/-- A scope that keeps its place and its names, and its declarations unless it is a root scope. -/
theorem modifyScope (h : g.Extends g') (target : ScopeId) {scope : Scope}
    (hparent : scope.parent = (g'.scopeAt target).parent) (hns : scope.ns = (g'.scopeAt target).ns)
    (hentries : (g'.scopeAt target).parent ≠ none → (g'.scopeAt target).entries ⊆ scope.entries)
    (hsymbols : ∀ d ∈ (g'.scopeAt target).entries, d.symbol?.isSome →
      ∃ d' ∈ scope.entries, d'.symbol? = d.symbol?)
    (hfresh : ∀ d ∈ scope.entries, d ∈ (g'.scopeAt target).entries ∨ g.nodes.size ≤ d.node) :
    g.Extends (g'.modifyScope target fun _ => scope) := by
  have hcases : ∀ s, (g'.modifyScope target fun _ => scope).scopeAt s = g'.scopeAt s ∨
      (s = target ∧ (g'.modifyScope target fun _ => scope).scopeAt s = scope) := by
    intro s
    rw [scopeAt_modifyScope]
    split
    · rename_i hs
      exact Or.inr ⟨hs.1, rfl⟩
    · exact Or.inl rfl
  refine
    { nodes_le := h.nodes_le
      scopes_le := by rw [modifyScope_scopes_size]; exact h.scopes_le
      namespaces_le := h.namespaces_le
      core := h.core
      scope_parent := fun s hs => ?_
      scope_ns := fun s hs => ?_
      entries := fun s hs => ?_
      symbols := fun s d hd hsome => ?_
      fresh := fun s d hd => ?_
      uri := h.uri
      root := h.root
      policy := h.policy }
  all_goals rcases hcases s with heq | ⟨rfl, heq⟩
  · rw [heq]
    exact h.scope_parent s hs
  · rw [heq, hparent]
    exact h.scope_parent s hs
  · rw [heq]
    exact h.scope_ns s hs
  · rw [heq, hns]
    exact h.scope_ns s hs
  · rw [heq]
    exact h.entries s hs
  · rw [heq]
    refine List.Subset.trans (h.entries s hs) (hentries ?_)
    rw [h.scope_parent s (scope_lt_of_parent hs)]
    exact hs
  · rw [heq]
    exact h.symbols s d hd hsome
  · rw [heq]
    obtain ⟨d', hd', hsame⟩ := h.symbols s d hd hsome
    obtain ⟨d'', hd'', hsame'⟩ := hsymbols d' hd' (hsame ▸ hsome)
    exact ⟨d'', hd'', hsame'.trans hsame⟩
  · rw [heq] at hd
    exact h.fresh s d hd
  · rw [heq] at hd
    rcases hfresh d hd with hd' | hnew
    · exact h.fresh s d hd'
    · exact Or.inr hnew

/-- Declaring a node that is not in the older graph. -/
theorem declare (h : g.Extends g') {d : Declaration} {target : ScopeId}
    (hnew : g.nodes.size ≤ d.node) (hindexed : (g'.scopeAt target).Indexed)
    (hok : g'.declare d target = .ok g'') : g.Extends g'' := by
  rcases declare_eq_ok hok with ⟨rfl, _⟩ | ⟨scope, hins, rfl⟩
  · exact h
  obtain ⟨rfl, _⟩ := hindexed.insert_eq_ok hins
  have hscope : g.Extends (g'.modifyScope target fun _ => (g'.scopeAt target).append d) := by
    refine h.modifyScope target rfl rfl ?_ ?_ ?_
    · exact fun _ => List.subset_append_left _ _
    · exact fun e he _ => ⟨e, List.mem_append_left _ he, rfl⟩
    · intro e he
      rcases List.mem_append.mp he with hold | hlast
      · exact Or.inl hold
      · rw [List.mem_singleton.mp hlast]
        exact Or.inr hnew
  exact modifyNew hscope hnew _

/-- Redefining a global name with a node that is not in the older graph. -/
theorem redefine (h : g.Extends g') {space : SymbolSpace} {name : QName} {node : NodeId}
    {target : ScopeId} (hnew : g.nodes.size ≤ node) (htarget : target < g'.scopes.size)
    (hindexed : (g'.scopeAt target).Indexed) (hroot : (g'.scopeAt target).parent = none) :
    g.Extends (g'.redefine space name node target) := by
  set d : Declaration := ⟨some name, space, node, .once⟩ with hd
  have hmod := modifyScope_const (f := fun scope => scope.replace d) htarget
  have hscope : g.Extends (g'.modifyScope target fun scope => scope.replace d) := by
    rw [hmod]
    rcases hindexed.replace_cases d with ⟨place, heq, hplace, _, hsame⟩ | ⟨heq, _⟩
    all_goals rw [heq]
    all_goals refine h.modifyScope target rfl rfl (fun hp => absurd hroot hp) ?_ ?_
    · intro e he hsome
      obtain ⟨i, hi, rfl⟩ := List.mem_iff_getElem.mp he
      by_cases hip : place = i
      · subst hip
        refine ⟨d, List.mem_iff_getElem.mpr ⟨place, by simpa using hi, by simp⟩, ?_⟩
        simpa [hi] using hsame.symm
      · refine ⟨_, List.mem_iff_getElem.mpr ⟨i, by simpa using hi, rfl⟩, ?_⟩
        rw [List.getElem_set_ne hip]
    · intro e he
      rcases List.mem_or_eq_of_mem_set he with hold | rfl
      · exact Or.inl hold
      · exact Or.inr hnew
    · exact fun e he _ => ⟨e, List.mem_append_left _ he, rfl⟩
    · intro e he
      rcases List.mem_append.mp he with hold | hlast
      · exact Or.inl hold
      · rw [List.mem_singleton.mp hlast]
        exact Or.inr hnew
  have hnode := modifyNew hscope hnew fun n => { n with name := some name }
  exact hnode.trans (of_nodes (Nat.le_refl _) (fun _ _ => rfl) rfl rfl rfl)

/-! ### What an extension keeps -/

theorem tag (h : g.Extends g') {n : NodeId} (hn : n < g.nodes.size) :
    (g'.nodeAt n).tag = (g.nodeAt n).tag := tag_eq_of_core (h.core n hn)

theorem contentScope (h : g.Extends g') {n : NodeId} (hn : n < g.nodes.size) :
    (g'.nodeAt n).contentScope = (g.nodeAt n).contentScope := contentScope_eq_of_core (h.core n hn)

/-- A node that is not declared stays so, because only new nodes get declared. -/
theorem undeclared (h : g.Extends g') {n : NodeId} (hn : n < g.nodes.size) (hfree : g.Undeclared n) :
    g'.Undeclared n := by
  intro s d hd he
  rcases h.fresh s d hd with hold | hnew
  · exact hfree s d hold he
  · exact absurd hn (Nat.not_lt.mpr (he ▸ hnew))

theorem targetUri (h : g.Extends g') (hreg : g.Registry) (htree : g.Tree) {n : NodeId}
    (hn : n < g.nodes.size) : g'.targetUri n = g.targetUri n := by
  have hs := htree.scope_lt n hn
  rw [Graph.targetUri, scope_eq_of_core (h.core n hn), h.scope_ns _ hs,
    h.uri _ (hreg.ns_lt _ hs), Graph.targetUri]

end Extends

end Graph

end XsdTypes
