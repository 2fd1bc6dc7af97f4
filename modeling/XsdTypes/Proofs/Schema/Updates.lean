import XsdTypes.Proofs.Arrays
import XsdTypes.Schema.Graph

/-!
# Reading a graph back after a change

Nodes, scopes and namespaces are kept in arrays and read with a default. The lemmas below say what
each change of a graph does to what is read, so that no later proof opens an array. A change of one
kind of thing leaves the others alone by definition.
-/

namespace XsdTypes.Graph

variable (g : Graph)

theorem nodeAt_eq_getElem {n : Nat} (h : n < g.nodes.size) : g.nodeAt n = g.nodes[n] := by
  simp [nodeAt, Array.getD, h]

theorem scopeAt_eq_getElem {s : Nat} (h : s < g.scopes.size) : g.scopeAt s = g.scopes[s] := by
  simp [scopeAt, Array.getD, h]

theorem namespaceAt_eq_getElem {i : NamespaceId} (hi : i < g.namespaces.size) :
    g.namespaceAt i = g.namespaces.items[i] := by
  rw [namespaceAt, Array.getD_eq_getD_getElem?, Array.getElem?_eq_getElem hi, Option.getD_some]

/-! ## Changes of a node -/

section ModifyNode

variable (id : NodeId) (f : Node → Node)

@[simp] theorem modifyNode_namespaces : (g.modifyNode id f).namespaces = g.namespaces := rfl

@[simp] theorem modifyNode_scopes : (g.modifyNode id f).scopes = g.scopes := rfl

@[simp] theorem modifyNode_documents : (g.modifyNode id f).documents = g.documents := rfl

@[simp] theorem modifyNode_redefined : (g.modifyNode id f).redefined = g.redefined := rfl

@[simp] theorem modifyNode_policy : (g.modifyNode id f).policy = g.policy := rfl

@[simp] theorem scopeAt_modifyNode (s : ScopeId) :
    (g.modifyNode id f).scopeAt s = g.scopeAt s := rfl

@[simp] theorem namespaceAt_modifyNode (ns : NamespaceId) :
    (g.modifyNode id f).namespaceAt ns = g.namespaceAt ns := rfl

@[simp] theorem modifyNode_nodes_size : (g.modifyNode id f).nodes.size = g.nodes.size := by
  simp [modifyNode]

theorem nodeAt_modifyNode (n : NodeId) :
    (g.modifyNode id f).nodeAt n =
      if n = id ∧ n < g.nodes.size then f (g.nodeAt n) else g.nodeAt n :=
  getD_modify g.nodes id n f

theorem nodeAt_modifyNode_ne {n : NodeId} (h : n ≠ id) :
    (g.modifyNode id f).nodeAt n = g.nodeAt n := by
  rw [nodeAt_modifyNode, if_neg (fun hn => h hn.1)]

theorem nodeAt_modifyNode_self (h : id < g.nodes.size) :
    (g.modifyNode id f).nodeAt id = f (g.nodeAt id) := by
  rw [nodeAt_modifyNode, if_pos ⟨rfl, h⟩]

end ModifyNode

/-! ## New nodes -/

section AddNode

variable (node : Node)

@[simp] theorem addNode_snd : (g.addNode node).2 = g.nodes.size := rfl

@[simp] theorem addNode_namespaces : (g.addNode node).1.namespaces = g.namespaces := rfl

@[simp] theorem addNode_scopes : (g.addNode node).1.scopes = g.scopes := rfl

@[simp] theorem addNode_documents : (g.addNode node).1.documents = g.documents := rfl

@[simp] theorem addNode_redefined : (g.addNode node).1.redefined = g.redefined := rfl

@[simp] theorem addNode_policy : (g.addNode node).1.policy = g.policy := rfl

@[simp] theorem scopeAt_addNode (s : ScopeId) : (g.addNode node).1.scopeAt s = g.scopeAt s := rfl

@[simp] theorem namespaceAt_addNode (ns : NamespaceId) :
    (g.addNode node).1.namespaceAt ns = g.namespaceAt ns := rfl

@[simp] theorem addNode_nodes_size : (g.addNode node).1.nodes.size = g.nodes.size + 1 := by
  simp [addNode]

theorem nodeAt_addNode (n : NodeId) :
    (g.addNode node).1.nodeAt n = if n = g.nodes.size then node else g.nodeAt n :=
  getD_push g.nodes node n

theorem nodeAt_addNode_of_lt {n : NodeId} (h : n < g.nodes.size) :
    (g.addNode node).1.nodeAt n = g.nodeAt n := by
  rw [nodeAt_addNode, if_neg (Nat.ne_of_lt h)]

theorem nodeAt_addNode_self : (g.addNode node).1.nodeAt g.nodes.size = node := by
  rw [nodeAt_addNode, if_pos rfl]

end AddNode

/-! ## Changes of a scope -/

section ModifyScope

variable (id : ScopeId) (f : Scope → Scope)

@[simp] theorem modifyScope_namespaces : (g.modifyScope id f).namespaces = g.namespaces := rfl

@[simp] theorem modifyScope_nodes : (g.modifyScope id f).nodes = g.nodes := rfl

@[simp] theorem modifyScope_documents : (g.modifyScope id f).documents = g.documents := rfl

@[simp] theorem modifyScope_redefined : (g.modifyScope id f).redefined = g.redefined := rfl

@[simp] theorem modifyScope_policy : (g.modifyScope id f).policy = g.policy := rfl

@[simp] theorem nodeAt_modifyScope (n : NodeId) : (g.modifyScope id f).nodeAt n = g.nodeAt n := rfl

@[simp] theorem namespaceAt_modifyScope (ns : NamespaceId) :
    (g.modifyScope id f).namespaceAt ns = g.namespaceAt ns := rfl

@[simp] theorem modifyScope_scopes_size : (g.modifyScope id f).scopes.size = g.scopes.size := by
  simp [modifyScope]

theorem scopeAt_modifyScope (s : ScopeId) :
    (g.modifyScope id f).scopeAt s =
      if s = id ∧ s < g.scopes.size then f (g.scopeAt s) else g.scopeAt s :=
  getD_modify g.scopes id s f

theorem scopeAt_modifyScope_self (h : id < g.scopes.size) :
    (g.modifyScope id f).scopeAt id = f (g.scopeAt id) := by
  rw [scopeAt_modifyScope, if_pos ⟨rfl, h⟩]

/-- A scope that is there is changed by putting another one in its place. -/
theorem modifyScope_const {g : Graph} {id : ScopeId} {f : Scope → Scope} (h : id < g.scopes.size) :
    g.modifyScope id f = g.modifyScope id fun _ => f (g.scopeAt id) := by
  have hget := g.scopeAt_eq_getElem h
  simp only [modifyScope, hget]
  congr 1

/-- A scope may be put in its own place. -/
theorem modifyScope_eq_self (g : Graph) (id : ScopeId) :
    (g.modifyScope id fun _ => g.scopeAt id) = g := by
  have hscopes : (g.scopes.modify id fun _ => g.scopeAt id) = g.scopes := by
    refine Array.ext (by simp) fun i hi hi' => ?_
    rw [Array.getElem_modify]
    split
    · rename_i hid
      subst hid
      exact g.scopeAt_eq_getElem hi'
    · rfl
  rw [modifyScope, hscopes]

end ModifyScope

/-! ## Changes of the namespaces -/

theorem namespaces_push_size (ns : Namespace) :
    (g.namespaces.push ns).size = g.namespaces.size + 1 :=
  Array.size_push _

theorem namespaces_push_getD (ns : Namespace) (i : NamespaceId) :
    (g.namespaces.push ns).items.getD i default =
      if i = g.namespaces.size then ns else g.namespaceAt i :=
  getD_push g.namespaces.items ns i

section ModifyNamespace

variable (id : NamespaceId) {f : Namespace → Namespace} (hf : ∀ ns, (f ns).uri = ns.uri)

theorem namespaceAt_modifyNamespace (i : NamespaceId) :
    (g.modifyNamespace id f hf).namespaceAt i =
      if i = id ∧ i < g.namespaces.size then f (g.namespaceAt i) else g.namespaceAt i :=
  getD_modify g.namespaces.items id i f

@[simp] theorem modifyNamespace_namespaces_size :
    (g.modifyNamespace id f hf).namespaces.size = g.namespaces.size :=
  Array.size_modify

end ModifyNamespace

/-! ## New scopes -/

section AddScope

variable (parent : Option ScopeId) (ns : NamespaceId)

@[simp] theorem addScope_snd : (g.addScope parent ns).2 = g.scopes.size := rfl

@[simp] theorem addScope_namespaces : (g.addScope parent ns).1.namespaces = g.namespaces := rfl

@[simp] theorem addScope_nodes : (g.addScope parent ns).1.nodes = g.nodes := rfl

@[simp] theorem addScope_documents : (g.addScope parent ns).1.documents = g.documents := rfl

@[simp] theorem addScope_redefined : (g.addScope parent ns).1.redefined = g.redefined := rfl

@[simp] theorem addScope_policy : (g.addScope parent ns).1.policy = g.policy := rfl

@[simp] theorem nodeAt_addScope (n : NodeId) :
    (g.addScope parent ns).1.nodeAt n = g.nodeAt n := rfl

@[simp] theorem namespaceAt_addScope (i : NamespaceId) :
    (g.addScope parent ns).1.namespaceAt i = g.namespaceAt i := rfl

@[simp] theorem addScope_scopes_size :
    (g.addScope parent ns).1.scopes.size = g.scopes.size + 1 := by
  simp [addScope]

theorem scopeAt_addScope (s : ScopeId) :
    (g.addScope parent ns).1.scopeAt s =
      if s = g.scopes.size then { parent, ns } else g.scopeAt s :=
  getD_push g.scopes { parent, ns } s

theorem scopeAt_addScope_of_lt {s : ScopeId} (h : s < g.scopes.size) :
    (g.addScope parent ns).1.scopeAt s = g.scopeAt s := by
  rw [scopeAt_addScope, if_neg (Nat.ne_of_lt h)]

theorem scopeAt_addScope_self :
    (g.addScope parent ns).1.scopeAt g.scopes.size = { parent, ns } := by
  rw [scopeAt_addScope, if_pos rfl]

end AddScope

end XsdTypes.Graph
