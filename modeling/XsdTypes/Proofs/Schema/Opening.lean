import XsdTypes.Proofs.Schema.Plan
import XsdTypes.Proofs.Schema.Sound
import XsdTypes.Schema.Reading

/-!
# What an accepted tag leaves behind

Every node of a document comes from a tag that was accepted where it stood, and what it did there can
still be read from the graph (`Traced`). A tag first adds its node and then carries out its effect,
in a few changes of the graph; each of them keeps the graph sound, the older nodes as they are, and
the new node up to its name and its scope (`Newest`).
-/

namespace XsdTypes

/-- A node before it has a name and a scope for its content. -/
def Node.bare (n : Node) : Node :=
  { n with name := none, ownScope := none }

/-- What binding the references of a node is about to change. -/
def Node.bound (n : Node) : Bool × List NodeId × List NodeId :=
  (n.resolved, n.payload.typeNodes, n.payload.targets)

/-- A change of nodes that keeps all that stays of them, their children and what is bound in them. -/
structure Node.Keeps (f : Node → Node) : Prop where
  core : ∀ n, (f n).core = n.core
  children : ∀ n, (f n).children = n.children
  bound : ∀ n, (f n).bound = n.bound

namespace Graph

/-- The declaration has been made in a scope: the declared node has its name, unless a redefinition of
the name stays, and what is declared outside root scopes stays declared. -/
def DeclaredAs (g : Graph) (s : ScopeId) (d : Declaration) : Prop :=
  (g.Undeclared d.node ∨ (g.nodeAt d.node).name = d.name) ∧
    ((g.scopeAt s).parent ≠ none → d ∈ (g.scopeAt s).entries)

/-- The tag of the node `n` stands in the node `p` and was accepted at the site `s` with the
effect `e`. -/
structure Traced (g : Graph) (n p : NodeId) (s : Site) (e : Effect) : Prop where
  parent : (g.nodeAt n).parent = some p
  tag : s.tag = (g.nodeAt n).tag
  parentTag : s.parentTag = some (g.nodeAt p).tag
  attributes : s.attributes = (g.nodeAt n).attributes
  uri : s.uri = g.targetUri n
  /-- The occurrences around the tag are those of the content of `p`. -/
  occurs : (g.nodeAt p).tag.carries (g.nodeAt p).ownScope.isSome = true →
    s.occurs = (g.nodeAt p).tag.contentOccurs (g.nodeAt p).payload
  effect : s.plan.effect = .ok e
  payload : (g.nodeAt n).payload.written = s.plan.payload.written
  opens : (g.nodeAt n).ownScope.isSome = e.opensScope
  bears : e.declares = none → (g.nodeAt n).name = e.bears
  undeclared : e.declares = none → g.Undeclared n
  declares : ∀ reg, e.declares = some reg →
    g.DeclaredAs (g.nodeAt n).scope ⟨reg.name, reg.space, n, reg.occurs⟩

/-- A graph in which everything is global. -/
structure Flat (g : Graph) : Prop where
  sound : g.Sound
  flat : ∀ s, s < g.scopes.size → (g.scopeAt s).parent = none

/-- Where a node comes from that `g₀` does not have: it is the outermost one of a document, whose
content is global, or its tag was accepted in another such node. -/
def Accounted (g₀ g : Graph) (n : NodeId) : Prop :=
  ((g.nodeAt n).tag = .schema ∧ (g.nodeAt n).payload.written = .schema ∧
      (g.scopeAt (g.nodeAt n).contentScope).parent = none) ∨
    ∃ p s e, g₀.nodes.size ≤ p ∧ g.Traced n p s e

/-- A graph in which the nodes that `g₀` does not have come from documents. -/
structure Grown (g₀ g : Graph) : Prop where
  base : g₀.Flat
  sound : g.Sound
  ext : g₀.Extends g
  schemaNamespace_lt : schemaNamespace < g.namespaces.size
  accounted : ∀ n, g₀.nodes.size ≤ n → n < g.nodes.size → g₀.Accounted g n

/-- A graph in which these nodes wait for their references to be bound, and in which nothing happened
to what the others are bound to. -/
structure Read (g₀ g : Graph) : Prop extends Grown g₀ g where
  kept : ∀ n, n < g₀.nodes.size → (g.nodeAt n).bound = (g₀.nodeAt n).bound
  pending : ∀ n, g₀.nodes.size ≤ n → n < g.nodes.size → (g.nodeAt n).bound = (false, [], [])

variable {g₀ g g' : Graph}

theorem contentOccurs_eq_of_core {n n' : Node} (h : n'.core = n.core) (tag : Tag) :
    tag.contentOccurs n'.payload = tag.contentOccurs n.payload := by
  have hoccurs : n'.payload.occurs = n.payload.occurs := by
    rw [← Payload.occurs_written, written_eq_of_core h, Payload.occurs_written]
  unfold Tag.contentOccurs
  rw [hoccurs]

theorem Traced.mono {n p : NodeId} {s : Site} {e : Effect} (h : g.Traced n p s e) (hg : g.Sound)
    (hext : g.Extends g') (hn : n < g.nodes.size) : g'.Traced n p s e := by
  have hp : p < g.nodes.size := Nat.lt_trans (hg.tree.parent_lt n p hn h.parent) hn
  have hs := hg.tree.scope_lt n hn
  have hcn := hext.core n hn
  have hcp := hext.core p hp
  refine
    { parent := (parent_eq_of_core hcn).trans h.parent
      tag := h.tag.trans (hext.tag hn).symm
      parentTag := by rw [hext.tag hp]; exact h.parentTag
      attributes := h.attributes.trans (attributes_eq_of_core hcn).symm
      uri := h.uri.trans (hext.targetUri hg.registry hg.tree hn).symm
      occurs := ?_
      effect := h.effect
      payload := (written_eq_of_core hcn).trans h.payload
      opens := by rw [ownScope_eq_of_core hcn]; exact h.opens
      bears := fun hd => (name_eq_of_core hcn).trans (h.bears hd)
      undeclared := fun hd => hext.undeclared hn (h.undeclared hd)
      declares := ?_ }
  · rw [hext.tag hp, ownScope_eq_of_core hcp, contentOccurs_eq_of_core hcp]
    exact h.occurs
  · intro reg hreg
    obtain ⟨hnamed, hentry⟩ := h.declares reg hreg
    refine ⟨hnamed.imp (hext.undeclared hn) (name_eq_of_core hcn).trans, fun hroot => ?_⟩
    rw [scope_eq_of_core hcn] at hroot ⊢
    rw [hext.scope_parent _ hs] at hroot
    exact hext.entries _ hroot (hentry hroot)

theorem Accounted.mono {n : NodeId} (h : g₀.Accounted g n) (hg : g.Sound) (hext : g.Extends g')
    (hn : n < g.nodes.size) : g₀.Accounted g' n := by
  rcases h with ⟨htag, hpayload, hroot⟩ | ⟨p, s, e, hp, ht⟩
  · refine Or.inl ⟨(hext.tag hn).trans htag,
      (written_eq_of_core (hext.core n hn)).trans hpayload, ?_⟩
    rw [hext.contentScope hn, hext.scope_parent _ (hg.tree.contentScope_lt hn)]
    exact hroot
  · exact Or.inr ⟨p, s, e, hp, ht.mono hg hext hn⟩

/-- Nothing new is read. -/
theorem Grown.extend (h : g₀.Grown g) (hsound : g'.Sound) (hext : g.Extends g')
    (hsize : g'.nodes.size = g.nodes.size) : g₀.Grown g' where
  base := h.base
  sound := hsound
  ext := h.ext.trans hext
  schemaNamespace_lt := Nat.lt_of_lt_of_le h.schemaNamespace_lt hext.namespaces_le
  accounted n hn hlt := by
    rw [hsize] at hlt
    exact (h.accounted n hn hlt).mono h.sound hext hlt

/-- Nothing new is read, and nothing is bound. -/
theorem Read.extend (h : g₀.Read g) (hsound : g'.Sound) (hext : g.Extends g')
    (hsize : g'.nodes.size = g.nodes.size)
    (hbound : ∀ n, (g'.nodeAt n).bound = (g.nodeAt n).bound) : g₀.Read g' where
  toGrown := h.toGrown.extend hsound hext hsize
  kept n hn := (hbound n).trans (h.kept n hn)
  pending n hn hlt := by
    rw [hsize] at hlt
    rw [hbound]
    exact h.pending n hn hlt

theorem Sound.modifyKeeping (h : g.Sound) (id : NodeId) {f : Node → Node} (hf : Node.Keeps f) :
    (g.modifyNode id f).Sound := by
  refine h.modifyNode id (fun n => ?_) (Or.inl fun n => name_eq_of_core (hf.core n))
  have hcore := hf.core n
  exact ⟨tag_eq_of_core hcore, scope_eq_of_core hcore, ownScope_eq_of_core hcore,
    parent_eq_of_core hcore, hf.children n⟩

theorem Read.modifyKeeping (h : g₀.Read g) (id : NodeId) {f : Node → Node} (hf : Node.Keeps f) :
    g₀.Read (g.modifyNode id f) := by
  refine h.extend (h.sound.modifyKeeping id hf) (Extends.modifyNode g id hf.core) (by simp)
    fun n => ?_
  rw [nodeAt_modifyNode]
  split
  · exact hf.bound _
  · rfl

/-! ## The newest node -/

/-- The graph `g'` is `g` with one more node, which is `node` up to its name and its scope. -/
structure Newest (g g' : Graph) (node : Node) : Prop where
  sound : g'.Sound
  ext : g.Extends g'
  size : g'.nodes.size = g.nodes.size + 1
  bound : ∀ n, n < g.nodes.size → (g'.nodeAt n).bound = (g.nodeAt n).bound
  node_eq : (g'.nodeAt g.nodes.size).bare = node

namespace Newest

variable {node : Node}

theorem lt (h : g.Newest g' node) : g.nodes.size < g'.nodes.size := by
  rw [h.size]
  exact Nat.lt_succ_self _

theorem modifyOld (h : g.Newest g' node) {id : NodeId} (hid : id < g.nodes.size) {f : Node → Node}
    (hf : Node.Keeps f) : g.Newest (g'.modifyNode id f) node where
  sound := h.sound.modifyKeeping id hf
  ext := h.ext.trans (Extends.modifyNode g' id hf.core)
  size := by rw [modifyNode_nodes_size]; exact h.size
  bound n hn := by
    rw [← h.bound n hn, nodeAt_modifyNode]
    split
    · exact hf.bound _
    · rfl
  node_eq := by
    rw [nodeAt_modifyNode_ne _ _ _ (Nat.ne_of_gt hid)]
    exact h.node_eq

/-- The newest node gets a name without being declared. -/
theorem name (h : g.Newest g' node) (hfree : g'.Undeclared g.nodes.size) (name : Option QName) :
    g.Newest (g'.modifyNode g.nodes.size fun n => { n with name }) node where
  sound := h.sound.modifyNode _ (fun _ => ⟨rfl, rfl, rfl, rfl, rfl⟩) (Or.inr hfree)
  ext := h.ext.modifyNew (Nat.le_refl _) _
  size := by rw [modifyNode_nodes_size]; exact h.size
  bound n hn := by
    rw [nodeAt_modifyNode_ne _ _ _ (Nat.ne_of_lt hn)]
    exact h.bound n hn
  node_eq := by
    rw [nodeAt_modifyNode_self _ _ _ h.lt]
    exact h.node_eq

/-- The newest node gets its payload. -/
theorem payload (h : g.Newest g' node) (payload : Payload) :
    g.Newest (g'.modifyNode g.nodes.size fun n => { n with payload }) { node with payload } where
  sound := h.sound.modifyNode _ (fun _ => ⟨rfl, rfl, rfl, rfl, rfl⟩) (Or.inl fun _ => rfl)
  ext := h.ext.modifyNew (Nat.le_refl _) _
  size := by rw [modifyNode_nodes_size]; exact h.size
  bound n hn := by
    rw [nodeAt_modifyNode_ne _ _ _ (Nat.ne_of_lt hn)]
    exact h.bound n hn
  node_eq := by
    rw [nodeAt_modifyNode_self _ _ _ h.lt, ← h.node_eq]
    rfl

theorem tag (h : g.Newest g' node) : (g'.nodeAt g.nodes.size).tag = node.tag := by
  rw [← h.node_eq]
  rfl

theorem scope (h : g.Newest g' node) : (g'.nodeAt g.nodes.size).scope = node.scope := by
  rw [← h.node_eq]
  rfl

theorem parent (h : g.Newest g' node) : (g'.nodeAt g.nodes.size).parent = node.parent := by
  rw [← h.node_eq]
  rfl

theorem attributes (h : g.Newest g' node) :
    (g'.nodeAt g.nodes.size).attributes = node.attributes := by
  rw [← h.node_eq]
  rfl

theorem payload_eq (h : g.Newest g' node) :
    (g'.nodeAt g.nodes.size).payload = node.payload := by
  rw [← h.node_eq]
  rfl

/-- With a newest node that comes from a document and waits for its references to be bound, a graph
is read. -/
theorem read (h : g.Newest g' node) (hg : g₀.Read g) (haccounted : g₀.Accounted g' g.nodes.size)
    (hbound : node.bound = (false, [], [])) : g₀.Read g' := by
  have hcases : ∀ n, n < g'.nodes.size → n < g.nodes.size ∨ n = g.nodes.size := by
    intro n hn
    rw [h.size] at hn
    exact Nat.lt_or_eq_of_le (Nat.le_of_lt_succ hn)
  refine
    { base := hg.base
      sound := h.sound
      ext := hg.ext.trans h.ext
      schemaNamespace_lt := Nat.lt_of_lt_of_le hg.schemaNamespace_lt h.ext.namespaces_le
      accounted := fun n hn hlt => ?_
      kept := fun n hn => (h.bound n (Nat.lt_of_lt_of_le hn hg.ext.nodes_le)).trans (hg.kept n hn)
      pending := fun n hn hlt => ?_ }
  · rcases hcases n hlt with hold | rfl
    · exact (hg.accounted n hn hold).mono hg.sound h.ext hold
    · exact haccounted
  · rcases hcases n hlt with hold | rfl
    · rw [h.bound n hold]
      exact hg.pending n hn hold
    · rw [← hbound, ← h.node_eq]
      rfl

/-- Nodes change in no other way than that the newest one gets a name. -/
theorem of_nodes {g'' : Graph} (h : g.Newest g' node) (hsound : g''.Sound) (hext : g.Extends g'')
    (hnodes : g''.nodes = g'.nodes ∨
      ∃ name, g''.nodes = g'.nodes.modify g.nodes.size fun n => { n with name }) :
    g.Newest g'' node ∧
      (g''.nodeAt g.nodes.size).ownScope = (g'.nodeAt g.nodes.size).ownScope := by
  rcases hnodes with heq | ⟨name, heq⟩
  · have hnode : ∀ n, g''.nodeAt n = g'.nodeAt n := fun n => by rw [nodeAt, heq, nodeAt]
    refine ⟨⟨hsound, hext, by rw [heq]; exact h.size, fun n hn => ?_, ?_⟩, by rw [hnode]⟩
    · rw [hnode]
      exact h.bound n hn
    · rw [hnode]
      exact h.node_eq
  · have hnode : ∀ n, g''.nodeAt n =
        (g'.modifyNode g.nodes.size fun n => { n with name }).nodeAt n := fun n => by
      rw [nodeAt, heq, nodeAt, Graph.modifyNode]
    have hself := nodeAt_modifyNode_self g' g.nodes.size (fun n => { n with name }) h.lt
    refine ⟨⟨hsound, hext, ?_, fun n hn => ?_, ?_⟩, by rw [hnode, hself]⟩
    · rw [heq, Array.size_modify]
      exact h.size
    · rw [hnode, nodeAt_modifyNode_ne _ _ _ (Nat.ne_of_lt hn)]
      exact h.bound n hn
    · rw [hnode, hself]
      exact h.node_eq

/-- The newest node is declared where it stands, unless a redefinition of its name stays. -/
theorem declare {g'' : Graph} (h : g.Newest g' node) (hfree : g'.Undeclared g.nodes.size)
    {d : Declaration} (hd : d.node = g.nodes.size) (hfits : d.space.fits node.tag)
    (hglobal : d.space = .type → ∀ q, d.name = some q → (g'.scopeAt node.scope).parent = none ∧
      q.uri = (g'.namespaceAt (g'.scopeAt node.scope).ns).uri)
    (hok : g'.declare d node.scope = .ok g'') :
    g.Newest g'' node ∧
      (g''.nodeAt g.nodes.size).ownScope = (g'.nodeAt g.nodes.size).ownScope ∧
      g''.DeclaredAs node.scope d := by
  have hlt : d.node < g'.nodes.size := hd ▸ h.lt
  have hsound : g''.Sound := by
    refine h.sound.declare hok (hd ▸ hfree) hlt ?_ ?_ hglobal
    · rw [hd, h.scope]
    · rw [hd, h.tag]
      exact hfits
  have hext := h.ext.declare (Nat.le_of_eq hd.symm) (h.sound.declared.indexed _) hok
  rcases declare_eq_ok hok with ⟨rfl, hroot⟩ | ⟨scope, hins, rfl⟩
  · exact ⟨h, rfl, Or.inl (hd ▸ hfree), fun hne => absurd hroot hne⟩
  obtain ⟨rfl, _⟩ := (h.sound.declared.indexed _).insert_eq_ok hins
  obtain ⟨hnewest, hown⟩ := h.of_nodes hsound hext (Or.inr ⟨d.name, by rw [← hd]; rfl⟩)
  refine ⟨hnewest, hown, Or.inr ?_, fun _ => ?_⟩
  · rw [nodeAt_modifyNode_self _ _ _ (by simpa using hlt)]
  · have hs : node.scope < g'.scopes.size := h.scope ▸ h.sound.tree.scope_lt _ h.lt
    rw [scopeAt_modifyNode, scopeAt_modifyScope_self _ _ _ hs]
    exact List.mem_append_right _ (List.mem_singleton.mpr rfl)

/-- The newest node redefines a global name. -/
theorem redefine (h : g.Newest g' node) (hfree : g'.Undeclared g.nodes.size) {space : SymbolSpace}
    {name : QName} (hfits : space.fits node.tag) (hroot : (g'.scopeAt node.scope).parent = none)
    (hglobal : space = .type → name.uri = (g'.namespaceAt (g'.scopeAt node.scope).ns).uri) :
    g.Newest (g'.redefine space name g.nodes.size node.scope) node ∧
      ((g'.redefine space name g.nodes.size node.scope).nodeAt g.nodes.size).ownScope =
        (g'.nodeAt g.nodes.size).ownScope ∧
      ((g'.redefine space name g.nodes.size node.scope).nodeAt g.nodes.size).name = some name := by
  have hs : node.scope < g'.scopes.size := h.scope ▸ h.sound.tree.scope_lt _ h.lt
  have hname : ((g'.redefine space name g.nodes.size node.scope).nodeAt g.nodes.size).name =
      some name := by
    change ((Graph.modifyNode _ g.nodes.size _).nodeAt g.nodes.size).name = some name
    rw [nodeAt_modifyNode_self _ _ _ (by simpa using h.lt)]
  have hsound : (g'.redefine space name g.nodes.size node.scope).Sound := by
    refine h.sound.redefine hfree h.lt h.scope ?_ fun hspace => ⟨hroot, hglobal hspace⟩
    rw [h.tag]
    exact hfits
  have hext : g.Extends (g'.redefine space name g.nodes.size node.scope) :=
    h.ext.redefine (Nat.le_refl _) hs (h.sound.declared.indexed _) hroot
  obtain ⟨hnewest, hown⟩ := h.of_nodes hsound hext (Or.inr ⟨some name, rfl⟩)
  exact ⟨hnewest, hown, hname⟩

/-- The newest node opens a scope for its content. -/
theorem openScope (h : g.Newest g' node) :
    g.Newest ((g'.addScope (some node.scope) (g'.scopeAt node.scope).ns).1.modifyNode g.nodes.size
      fun n => { n with ownScope := some g'.scopes.size }) node := by
  have hsound := h.sound.openScope h.size.symm
  rw [h.scope] at hsound
  refine ⟨hsound, ?_, ?_, fun n hn => ?_, ?_⟩
  · exact (h.ext.trans (Extends.addScope g' _ _)).modifyNew (Nat.le_refl _) _
  · rw [modifyNode_nodes_size]
    exact h.size
  · rw [nodeAt_modifyNode_ne _ _ _ (Nat.ne_of_lt hn)]
    exact h.bound n hn
  · rw [nodeAt_modifyNode_self _ _ _ (by simpa using h.lt)]
    exact h.node_eq

/-- A node that lies in no other is added. -/
theorem addNode (hg : g.Sound) (hbare : node.bare = node) (hparent : node.parent = none)
    (hchildren : node.children = []) (hscope : node.scope < g.scopes.size) :
    g.Newest (g.addNode node).1 node where
  sound := hg.addNode hparent (by rw [← hbare]; rfl) hchildren hscope
  ext := Extends.addNode g node
  size := addNode_nodes_size g node
  bound n hn := by rw [nodeAt_addNode_of_lt _ _ hn]
  node_eq := by rw [nodeAt_addNode_self]; exact hbare

/-- The graph grows without a change of nodes. -/
theorem grow {g'' : Graph} (h : g.Newest g' node) (hsound : g''.Sound) (hext : g'.Extends g'')
    (hnodes : g''.nodes = g'.nodes) : g.Newest g'' node :=
  (h.of_nodes hsound (h.ext.trans hext) (Or.inl hnodes)).1

/-- The newest node, of a `schema` tag, moves into the root scope of its namespace. -/
theorem openRoot (h : g.Newest g' node) {ns : NamespaceId}
    (hns : ns < g'.namespaces.size) (htag : node.tag = .schema) (hparent : node.parent = none)
    (document : Option DocumentId) :
    g.Newest (g'.modifyNode g.nodes.size fun n => { n with
        document
        scope := (g'.namespaceAt ns).root
        ownScope := some (g'.namespaceAt ns).root })
      { node with document, scope := (g'.namespaceAt ns).root } where
  sound := by
    refine h.sound.openRoot h.size.symm hns (fun s d hd he => ?_) (h.tag.trans htag)
      (h.parent.trans hparent) document
    -- no declaration fits a `schema` tag
    have hfits := (h.sound.declared.entry s d hd).fits
    rw [he, h.tag, htag] at hfits
    cases hspace : d.space <;> rw [hspace] at hfits <;> cases hfits
  ext := h.ext.modifyNew (Nat.le_refl _) _
  size := by rw [modifyNode_nodes_size]; exact h.size
  bound n hn := by
    rw [nodeAt_modifyNode_ne _ _ _ (Nat.ne_of_lt hn)]
    exact h.bound n hn
  node_eq := by
    rw [nodeAt_modifyNode_self _ _ _ h.lt, ← h.node_eq]
    rfl

end Newest

/-! ## Carrying out the effect of a tag -/

theorem keeps_markMixed : Node.Keeps Reading.markMixed := by
  constructor
  all_goals
    intro n
    unfold Reading.markMixed
    split
  all_goals
    first
    | rfl
    | simp [*, Node.core, Node.bound, Payload.written, Payload.typeNodes, Payload.targets]

theorem keeps_addEnumeration (value : String) : Node.Keeps (Reading.addEnumeration value) := by
  constructor
  all_goals
    intro n
    unfold Reading.addEnumeration
    split
  all_goals
    first
    | rfl
    | simp [*, Node.core, Node.bound, Payload.written, Payload.typeNodes, Payload.targets]

/-- The graph after a tag has marked the node around it as mixed. -/
def mark (g : Graph) (parent : NodeId) (e : Effect) : Graph :=
  if e.marksMixed then g.modifyNode parent Reading.markMixed else g

/-- The graph after a tag has given its value to the node around it. -/
def contribute (g : Graph) (parent : NodeId) (e : Effect) : Graph :=
  match e.contributes with
  | some value => g.modifyNode parent (Reading.addEnumeration value)
  | none => g

/-- The graph after a node has got the name it bears without a declaration. -/
def bear (g : Graph) (id : NodeId) (e : Effect) : Graph :=
  match e.bears with
  | some name => g.modifyNode id fun node => { node with name := some name }
  | none => g

/-- The effect of a tag is carried out in this order. -/
theorem perform_eq_ok {g₁ : Graph} {id : NodeId} {scope own : ScopeId} {f : Frame} {e : Effect}
    (hok : Reading.perform g₁ id scope f e = .ok (g', own)) :
    ∃ g₂, (e.declares = none → g₂ = ((g₁.mark f.node e).contribute f.node e).bear id e) ∧
      (∀ reg, e.declares = some reg →
        Reading.register (((g₁.mark f.node e).contribute f.node e).bear id e) id (some f.tag) reg =
          .ok g₂) ∧
      (e.opensScope = true → own = g₂.scopes.size ∧
        g' = (g₂.addScope (some scope) (g₂.scopeAt scope).ns).1.modifyNode id
          fun node => { node with ownScope := some g₂.scopes.size }) ∧
      (e.opensScope = false → own = scope ∧ g' = g₂) := by
  have hrest : ∀ {g₂ : Graph},
      (if e.opensScope = true then
        Except.ok ((g₂.addScope (some scope) (g₂.scopeAt scope).ns).1.modifyNode id
          (fun node => { node with ownScope := some g₂.scopes.size }), g₂.scopes.size)
      else Except.ok (g₂, scope)) = (.ok (g', own) : Except Halt (Graph × ScopeId)) →
      (e.opensScope = true → own = g₂.scopes.size ∧
        g' = (g₂.addScope (some scope) (g₂.scopeAt scope).ns).1.modifyNode id
          fun node => { node with ownScope := some g₂.scopes.size }) ∧
      (e.opensScope = false → own = scope ∧ g' = g₂) := by
    intro g₂ h
    split at h
    · rename_i ho
      cases h
      exact ⟨fun _ => ⟨rfl, rfl⟩, fun ho' => by rw [ho] at ho'; cases ho'⟩
    · rename_i ho
      cases h
      exact ⟨fun ho' => absurd ho' ho, fun _ => ⟨rfl, rfl⟩⟩
  unfold Reading.perform at hok
  extract_lets at hok
  split at hok
  · rename_i reg hreg
    obtain ⟨g₂, hg₂, hok⟩ := Sequencing.bind_eq_ok.mp hok
    refine ⟨g₂, fun hnone => ?_, fun reg' hreg' => ?_, hrest hok⟩
    · rw [hnone] at hreg
      cases hreg
    · rw [hreg] at hreg'
      cases hreg'
      exact hg₂
  · rename_i hnone
    obtain ⟨g₂, hg₂, hok⟩ := Sequencing.bind_eq_ok.mp hok
    refine ⟨g₂, fun _ => ?_, fun reg hreg => ?_, hrest hok⟩
    · cases hg₂
      rfl
    · rw [hnone] at hreg
      cases hreg

namespace Newest

variable {node : Node} {f : Frame} {e : Effect}

theorem mark (h : g.Newest g' node) (hparent : f.node < g.nodes.size) :
    g.Newest (g'.mark f.node e) node := by
  unfold Graph.mark
  split
  · exact h.modifyOld hparent keeps_markMixed
  · exact h

theorem contribute (h : g.Newest g' node) (hparent : f.node < g.nodes.size) :
    g.Newest (g'.contribute f.node e) node := by
  unfold Graph.contribute
  split
  · exact h.modifyOld hparent (keeps_addEnumeration _)
  · exact h

theorem bear (h : g.Newest g' node) (hfree : g'.Undeclared g.nodes.size) :
    g.Newest (g'.bear g.nodes.size e) node := by
  unfold Graph.bear
  split
  · exact h.name hfree _
  · exact h

end Newest

section Frames

variable (g : Graph) (id : NodeId) (e : Effect)

@[simp] theorem mark_nodes_size : (g.mark id e).nodes.size = g.nodes.size := by
  unfold mark
  split <;> simp

@[simp] theorem mark_scopes : (g.mark id e).scopes = g.scopes := by
  unfold mark
  split <;> rfl

@[simp] theorem mark_namespaces : (g.mark id e).namespaces = g.namespaces := by
  unfold mark
  split <;> rfl

@[simp] theorem mark_documents : (g.mark id e).documents = g.documents := by
  unfold mark
  split <;> rfl

theorem nodeAt_mark_ne {n : NodeId} (h : n ≠ id) : (g.mark id e).nodeAt n = g.nodeAt n := by
  unfold mark
  split
  · exact nodeAt_modifyNode_ne _ _ _ h
  · rfl

@[simp] theorem contribute_nodes_size : (g.contribute id e).nodes.size = g.nodes.size := by
  unfold contribute
  split <;> simp

@[simp] theorem contribute_scopes : (g.contribute id e).scopes = g.scopes := by
  unfold contribute
  split <;> rfl

@[simp] theorem contribute_namespaces : (g.contribute id e).namespaces = g.namespaces := by
  unfold contribute
  split <;> rfl

@[simp] theorem contribute_documents : (g.contribute id e).documents = g.documents := by
  unfold contribute
  split <;> rfl

theorem nodeAt_contribute_ne {n : NodeId} (h : n ≠ id) :
    (g.contribute id e).nodeAt n = g.nodeAt n := by
  unfold contribute
  split
  · exact nodeAt_modifyNode_ne _ _ _ h
  · rfl

@[simp] theorem bear_nodes_size : (g.bear id e).nodes.size = g.nodes.size := by
  unfold bear
  split <;> simp

@[simp] theorem bear_scopes : (g.bear id e).scopes = g.scopes := by
  unfold bear
  split <;> rfl

@[simp] theorem bear_namespaces : (g.bear id e).namespaces = g.namespaces := by
  unfold bear
  split <;> rfl

@[simp] theorem bear_documents : (g.bear id e).documents = g.documents := by
  unfold bear
  split <;> rfl

/-- The node has the name it bears, and none otherwise. -/
theorem nodeAt_bear (hid : id < g.nodes.size) (hname : (g.nodeAt id).name = none) :
    (g.bear id e).nodeAt id = { g.nodeAt id with name := e.bears } := by
  unfold bear
  split
  · rename_i name hb
    rw [nodeAt_modifyNode_self _ _ _ hid, hb]
  · rename_i hb
    rw [hb, ← hname]

end Frames

theorem documents_of_register {id : NodeId} {parentTag : Option Tag} {reg : Registration}
    (hok : Reading.register g id parentTag reg = .ok g') :
    g'.documents = g.documents ∧ g'.namespaces = g.namespaces := by
  have hdeclare : ∀ {d : Declaration} {target : ScopeId}, g.declare d target = .ok g' →
      g'.documents = g.documents ∧ g'.namespaces = g.namespaces := by
    intro d target hd
    rcases declare_eq_ok hd with ⟨rfl, _⟩ | ⟨scope, _, rfl⟩ <;> exact ⟨rfl, rfl⟩
  unfold Reading.register at hok
  simp only at hok
  split at hok
  · split at hok
    · cases hok
      exact ⟨rfl, rfl⟩
    · exact hdeclare hok
  · exact hdeclare hok

theorem graph_eq_of_register_eq_error {id : NodeId} {parentTag : Option Tag} {reg : Registration}
    {halt : Halt} (herror : Reading.register g id parentTag reg = .error halt) : halt.graph = g := by
  unfold Reading.register at herror
  simp only at herror
  split at herror
  · split at herror
    · cases herror
    · exact graph_eq_of_declare_eq_error herror
  · exact graph_eq_of_declare_eq_error herror

/-- A tag whose declaration is refused leaves the graph as it is, if it does nothing before. -/
theorem graph_eq_of_perform_eq_error {id : NodeId} {scope : ScopeId} {f : Frame} {e : Effect}
    {halt : Halt}
    (halone : e.declares ≠ none → e.marksMixed = false ∧ e.contributes = none ∧ e.bears = none)
    (herror : Reading.perform g id scope f e = .error halt) : halt.graph = g := by
  cases hdeclares : e.declares with
  | none =>
    simp only [Reading.perform, hdeclares] at herror
    change (if e.opensScope = true then _ else _) = _ at herror
    split at herror <;> cases herror
  | some reg =>
    obtain ⟨hmarks, hcontributes, hbears⟩ := halone (by rw [hdeclares]; exact Option.some_ne_none reg)
    simp only [Reading.perform, hdeclares, hmarks, hcontributes, hbears, if_neg Bool.false_ne_true]
      at herror
    rcases Sequencing.bind_eq_error.mp herror with hregister | ⟨g₂, _, hrest⟩
    · exact graph_eq_of_register_eq_error hregister
    · split at hrest <;> cases hrest

/-- The effect of a tag other than `schema` changes neither documents nor namespaces. -/
theorem perform_documents {g₁ : Graph} {id : NodeId} {scope own : ScopeId} {f : Frame} {e : Effect}
    (hok : Reading.perform g₁ id scope f e = .ok (g', own)) :
    g'.documents = g₁.documents ∧ g'.namespaces = g₁.namespaces := by
  obtain ⟨g₂, hnone, hsome, hopen, hclosed⟩ := perform_eq_ok hok
  have hdeclared : g₂.documents = g₁.documents ∧ g₂.namespaces = g₁.namespaces := by
    cases hd : e.declares with
    | none =>
      rw [hnone hd]
      simp
    | some reg => simpa using documents_of_register (hsome reg hd)
  cases ho : e.opensScope with
  | false =>
    obtain ⟨_, rfl⟩ := hclosed ho
    exact hdeclared
  | true =>
    obtain ⟨_, rfl⟩ := hopen ho
    exact hdeclared

theorem redefine_scope_parent (g : Graph) (space : SymbolSpace) (name : QName) (node : NodeId)
    (target s : ScopeId) :
    ((g.redefine space name node target).scopeAt s).parent = (g.scopeAt s).parent := by
  have hs : (g.redefine space name node target).scopeAt s =
      (g.modifyScope target fun scope =>
        scope.replace ⟨some name, space, node, .once⟩).scopeAt s := rfl
  rw [hs, scopeAt_modifyScope]
  split
  · exact Scope.replace_parent _ _
  · rfl

namespace Newest

variable {node : Node} {f : Frame} {e : Effect}

/-- What a tag declares is declared where it stands. -/
theorem register {g'' : Graph} {reg : Registration} (h : g.Newest g' node)
    (hfree : g'.Undeclared g.nodes.size) (hfits : reg.space.fits node.tag)
    (hglobal : reg.space = .type → ∀ q, reg.name = some q →
      (g'.scopeAt node.scope).parent = none ∧
        q.uri = (g'.namespaceAt (g'.scopeAt node.scope).ns).uri)
    (hredefine : f.tag = .redefineDoc → (g'.scopeAt node.scope).parent = none)
    (hok : Reading.register g' g.nodes.size (some f.tag) reg = .ok g'') :
    g.Newest g'' node ∧
      (g''.nodeAt g.nodes.size).ownScope = (g'.nodeAt g.nodes.size).ownScope ∧
      g''.DeclaredAs node.scope ⟨reg.name, reg.space, g.nodes.size, reg.occurs⟩ := by
  unfold Reading.register at hok
  simp only [h.scope] at hok
  split at hok
  · rename_i name hname
    rw [hname] at hglobal ⊢
    split at hok
    · rename_i hred
      cases hok
      have hroot := hredefine (Option.some.inj hred)
      obtain ⟨hnewest, hown, hname'⟩ :=
        h.redefine hfree hfits hroot fun hspace => (hglobal hspace name rfl).2
      refine ⟨hnewest, hown, Or.inr hname', fun hne => absurd ?_ hne⟩
      rw [redefine_scope_parent]
      exact hroot
    · exact h.declare hfree rfl hfits hglobal hok
  · rename_i hname
    rw [hname] at hglobal ⊢
    exact h.declare hfree rfl hfits hglobal hok

end Newest

/-- The newest node has the name that its tag bears and the declaration that its tag makes. -/
structure Settled (g g' : Graph) (node : Node) (e : Effect) : Prop where
  newest : g.Newest g' node
  bears : e.declares = none → (g'.nodeAt g.nodes.size).name = e.bears
  undeclared : e.declares = none → g'.Undeclared g.nodes.size
  declares : ∀ reg, e.declares = some reg →
    g'.DeclaredAs node.scope ⟨reg.name, reg.space, g.nodes.size, reg.occurs⟩

section Effects

variable {node : Node} {f : Frame} {e : Effect}

/-- A tag tells the node around it what it has to tell, and its own node the name. -/
theorem nodeAt_told {g₁ : Graph} (h : g.Newest g₁ node) (hparent : f.node < g.nodes.size)
    (hname : (g₁.nodeAt g.nodes.size).name = none) :
    (((g₁.mark f.node e).contribute f.node e).bear g.nodes.size e).nodeAt g.nodes.size =
      { g₁.nodeAt g.nodes.size with name := e.bears } := by
  have hne : g.nodes.size ≠ f.node := Nat.ne_of_gt hparent
  have hsame : ((g₁.mark f.node e).contribute f.node e).nodeAt g.nodes.size =
      g₁.nodeAt g.nodes.size := by
    rw [nodeAt_contribute_ne _ _ _ hne, nodeAt_mark_ne _ _ _ hne]
  have hlt := ((h.mark (e := e) hparent).contribute (e := e) hparent).lt
  rw [nodeAt_bear _ _ _ hlt (by rw [hsame]; exact hname), hsame]

/-- The newest node is settled before its tag opens a scope. -/
theorem settled_of_told {g₁ g₂ : Graph} (h : g.Newest g₁ node)
    (hfree : g₁.Undeclared g.nodes.size) (hname : (g₁.nodeAt g.nodes.size).name = none)
    (hparent : f.node < g.nodes.size)
    (hfits : ∀ reg, e.declares = some reg → reg.space.fits node.tag)
    (hglobal : ∀ reg q, e.declares = some reg → reg.space = .type → reg.name = some q →
      (g₁.scopeAt node.scope).parent = none ∧
        q.uri = (g₁.namespaceAt (g₁.scopeAt node.scope).ns).uri)
    (hredefine : f.tag = .redefineDoc → (g₁.scopeAt node.scope).parent = none)
    (hnone : e.declares = none →
      g₂ = ((g₁.mark f.node e).contribute f.node e).bear g.nodes.size e)
    (hsome : ∀ reg, e.declares = some reg →
      Reading.register (((g₁.mark f.node e).contribute f.node e).bear g.nodes.size e) g.nodes.size
        (some f.tag) reg = .ok g₂) :
    g.Settled g₂ node e ∧
      (g₂.nodeAt g.nodes.size).ownScope = (g₁.nodeAt g.nodes.size).ownScope := by
  have htold := nodeAt_told (e := e) h hparent hname
  set told := ((g₁.mark f.node e).contribute f.node e).bear g.nodes.size e with htolddef
  have hscopes : told.scopes = g₁.scopes := by simp [htolddef]
  have hsc : ∀ s, told.scopeAt s = g₁.scopeAt s := fun s => by rw [scopeAt, hscopes, scopeAt]
  have hns : ∀ i, told.namespaceAt i = g₁.namespaceAt i := fun i => by
    rw [namespaceAt, namespaceAt]
    simp [htolddef]
  have hfree' : told.Undeclared g.nodes.size := hfree.of_scopes hscopes
  have hnewest : g.Newest told node :=
    ((h.mark hparent).contribute hparent).bear (hfree.of_scopes (by simp))
  cases hd : e.declares with
  | none =>
    obtain rfl := hnone hd
    refine ⟨⟨hnewest, fun _ => by rw [htold], fun _ => hfree', fun reg hreg => ?_⟩, by rw [htold]⟩
    rw [hd] at hreg
    cases hreg
  | some reg =>
    obtain ⟨hnewest', hown, hentry⟩ := hnewest.register hfree' (hfits reg hd)
      (fun hspace q hq => by rw [hsc, hns]; exact hglobal reg q hd hspace hq)
      (fun hf => by rw [hsc]; exact hredefine hf) (hsome reg hd)
    have hno : e.declares ≠ none := by rw [hd]; exact Option.some_ne_none reg
    refine ⟨⟨hnewest', fun h => absurd h hno, fun h => absurd h hno, fun reg' hreg' => ?_⟩, ?_⟩
    · rw [hd] at hreg'
      cases hreg'
      exact hentry
    · rw [hown, htold]

/-- The scope that the newest node opens declares nothing, so the node stays settled. -/
theorem Settled.openScope (h : g.Settled g' node e) :
    g.Settled ((g'.addScope (some node.scope) (g'.scopeAt node.scope).ns).1.modifyNode g.nodes.size
      fun n => { n with ownScope := some g'.scopes.size }) node e := by
  set g₁ := (g'.addScope (some node.scope) (g'.scopeAt node.scope).ns).1 with hg₁
  have hself := nodeAt_modifyNode_self g₁ g.nodes.size
    (fun n => { n with ownScope := some g'.scopes.size }) h.newest.lt
  have hlt : node.scope < g'.scopes.size :=
    h.newest.scope ▸ h.newest.sound.tree.scope_lt _ h.newest.lt
  have hfree : g'.Undeclared g.nodes.size → (g₁.modifyNode g.nodes.size
      fun n => { n with ownScope := some g'.scopes.size }).Undeclared g.nodes.size := fun hu =>
    ((Extends.addScope g' _ _).undeclared h.newest.lt hu).of_scopes rfl
  refine ⟨h.newest.openScope, fun hd => ?_, fun hd => hfree (h.undeclared hd), fun reg hreg => ?_⟩
  · rw [hself]
    exact h.bears hd
  · obtain ⟨hnamed, hentry⟩ := h.declares reg hreg
    refine ⟨hnamed.imp hfree fun hnamed => ?_, fun hne => ?_⟩
    · rw [hself]
      exact hnamed
    · rw [scopeAt_modifyNode, hg₁, scopeAt_addScope_of_lt _ _ _ hlt] at hne ⊢
      exact hentry hne

/-- What the newest node is when the effect of its tag has been carried out. -/
theorem Newest.perform {g₁ : Graph} {own : ScopeId} (h : g.Newest g₁ node)
    (hfree : g₁.Undeclared g.nodes.size) (hname : (g₁.nodeAt g.nodes.size).name = none)
    (hown : (g₁.nodeAt g.nodes.size).ownScope = none) (hparent : f.node < g.nodes.size)
    (hscope : node.scope = f.scope)
    (hfits : ∀ reg, e.declares = some reg → reg.space.fits node.tag)
    (hglobal : ∀ reg q, e.declares = some reg → reg.space = .type → reg.name = some q →
      (g₁.scopeAt node.scope).parent = none ∧
        q.uri = (g₁.namespaceAt (g₁.scopeAt node.scope).ns).uri)
    (hredefine : f.tag = .redefineDoc → (g₁.scopeAt node.scope).parent = none)
    (hok : Reading.perform g₁ g.nodes.size f.scope f e = .ok (g', own)) :
    g.Settled g' node e ∧ (g'.nodeAt g.nodes.size).ownScope.isSome = e.opensScope ∧
      (g'.nodeAt g.nodes.size).contentScope = own := by
  obtain ⟨g₂, hnone, hsome, hopen, hclosed⟩ := perform_eq_ok hok
  obtain ⟨hsettled, hsame⟩ :=
    settled_of_told h hfree hname hparent hfits hglobal hredefine hnone hsome
  rw [hown] at hsame
  cases ho : e.opensScope with
  | false =>
    obtain ⟨rfl, rfl⟩ := hclosed ho
    refine ⟨hsettled, by rw [hsame]; rfl, ?_⟩
    rw [Node.contentScope, hsame, hsettled.newest.scope, hscope]
    rfl
  | true =>
    obtain ⟨rfl, rfl⟩ := hopen ho
    rw [← hscope]
    have hself := nodeAt_modifyNode_self (g₂.addScope (some node.scope) (g₂.scopeAt node.scope).ns).1
      g.nodes.size (fun n => { n with ownScope := some g₂.scopes.size }) hsettled.newest.lt
    refine ⟨hsettled.openScope, ?_, ?_⟩ <;> rw [hself] <;> rfl

end Effects

end Graph

end XsdTypes
