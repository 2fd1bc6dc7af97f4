import XsdTypes.Proofs.Schema.Lookup
import XsdTypes.Proofs.Sequencing
import XsdTypes.Schema.Resolution

/-!
# Binding all references

What binding finds for a node depends on the scopes, the namespaces and the places of nodes, but not
on what other nodes have been bound to. So the nodes may be bound one after the other, and the result
is the same as if all had been bound in the graph before (`Resolved`).
-/

namespace XsdTypes

open Sequencing

/-- A node without what binding changes. -/
def Node.frame (n : Node) : Node :=
  { n with payload := .unset, resolved := false }

namespace Resolution

/-- The two graphs agree on all that names are looked up in. -/
structure SameNames (g g' : Graph) : Prop where
  scopes : g'.scopes = g.scopes
  namespaceId? : ∀ uri, g'.namespaceId? uri = g.namespaceId? uri
  root : ∀ i, (g'.namespaceAt i).root = (g.namespaceAt i).root
  documents : g'.documents = g.documents
  frame : ∀ n, (g'.nodeAt n).frame = (g.nodeAt n).frame

namespace SameNames

variable {g g' g'' : Graph} (h : SameNames g g')

theorem of_nodes (hscopes : g'.scopes = g.scopes) (hns : g'.namespaces = g.namespaces)
    (hdocs : g'.documents = g.documents)
    (hframe : ∀ n, (g'.nodeAt n).frame = (g.nodeAt n).frame) : SameNames g g' where
  scopes := hscopes
  namespaceId? uri := by rw [Graph.namespaceId?, hns, Graph.namespaceId?]
  root i := by rw [Graph.namespaceAt, hns, Graph.namespaceAt]
  documents := hdocs
  frame := hframe

include h

theorem trans (h' : SameNames g' g'') : SameNames g g'' where
  scopes := h'.scopes.trans h.scopes
  namespaceId? uri := (h'.namespaceId? uri).trans (h.namespaceId? uri)
  root i := (h'.root i).trans (h.root i)
  documents := h'.documents.trans h.documents
  frame n := (h'.frame n).trans (h.frame n)

theorem scopeAt (s : ScopeId) : g'.scopeAt s = g.scopeAt s := by
  rw [Graph.scopeAt, h.scopes, Graph.scopeAt]

theorem tag (n : NodeId) : (g'.nodeAt n).tag = (g.nodeAt n).tag := by
  have hframe := congrArg Node.tag (h.frame n)
  exact hframe

theorem rootScope (ns : NamespaceId) : g'.rootScope ns = g.rootScope ns := by
  rw [Graph.rootScope, h.scopeAt, h.root, Graph.rootScope]

theorem findGlobal? (symbol : SchemaSymbol) : g'.findGlobal? symbol = g.findGlobal? symbol := by
  unfold Graph.findGlobal?
  rw [h.namespaceId?]
  exact congrArg _ (funext fun ns => by rw [h.rootScope])

theorem findOutward? (symbol : SchemaSymbol) (fuel : Nat) (s : ScopeId) :
    g'.findOutward? symbol fuel s = g.findOutward? symbol fuel s := by
  induction fuel generalizing s with
  | zero => rfl
  | succ fuel ih =>
    unfold Graph.findOutward?
    rw [h.scopeAt]
    simp only [ih]

theorem lookup? (start : ScopeId) (symbol : SchemaSymbol) :
    g'.lookup? start symbol = g.lookup? start symbol := by
  rw [Graph.lookup?, h.findOutward?, h.findGlobal?, h.scopes, Graph.lookup?]

theorem location (id : NodeId) : g'.location id = g.location id := by
  have hdocument : (g'.nodeAt id).document = (g.nodeAt id).document := by
    have hframe := congrArg Node.document (h.frame id)
    exact hframe
  have hposition : (g'.nodeAt id).position = (g.nodeAt id).position := by
    have hframe := congrArg Node.position (h.frame id)
    exact hframe
  simp only [Graph.location, Graph.documentAt, hdocument, hposition, h.tag, h.documents]

theorem resolveFrom (id : NodeId) (symbol : SchemaSymbol) :
    g'.resolveFrom id symbol = g.resolveFrom id symbol := by
  have hscope : (g'.nodeAt id).scope = (g.nodeAt id).scope := by
    have hframe := congrArg Node.scope (h.frame id)
    exact hframe
  rw [Graph.resolveFrom, hscope, h.lookup?, h.location, Graph.resolveFrom]

theorem resolveGlobal (id : NodeId) (symbol : SchemaSymbol) :
    g'.resolveGlobal id symbol = g.resolveGlobal id symbol := by
  rw [Graph.resolveGlobal, h.findGlobal?, h.location, Graph.resolveGlobal]

theorem inlineType? (id : NodeId) : Resolution.inlineType? g' id = Resolution.inlineType? g id := by
  have hown : (g'.nodeAt id).ownScope = (g.nodeAt id).ownScope := by
    have hframe := congrArg Node.ownScope (h.frame id)
    exact hframe
  unfold Resolution.inlineType?
  rw [hown]
  exact congrArg _ (funext fun s => by rw [h.scopeAt])

theorem simpleTypes (id : NodeId) : Resolution.simpleTypes g' id = Resolution.simpleTypes g id := by
  have hchildren : (g'.nodeAt id).children = (g.nodeAt id).children := by
    have hframe := congrArg Node.children (h.frame id)
    exact hframe
  unfold Resolution.simpleTypes
  rw [hchildren]
  exact List.filter_congr fun child _ => by rw [h.tag]

theorem builtin (id : NodeId) (localName : String) :
    Resolution.builtin g' id localName = Resolution.builtin g id localName := by
  rw [Resolution.builtin, Graph.builtin?, h.rootScope, h.location, Resolution.builtin,
    Graph.builtin?]

theorem bindAscription (id : NodeId) (space : SymbolSpace) (fallback : String) (a : Ascription) :
    Resolution.bindAscription g' id space fallback a =
      Resolution.bindAscription g id space fallback a := by
  unfold Resolution.bindAscription
  rw [h.inlineType?]
  simp only [h.resolveFrom, h.resolveGlobal, h.builtin]

/-- What a node is bound to depends on nothing else than its payload. -/
theorem bind (id : NodeId) (hpayload : (g'.nodeAt id).payload = (g.nodeAt id).payload) :
    Resolution.bind g' id = Resolution.bind g id := by
  unfold Resolution.bind
  rw [hpayload]
  simp only [h.bindAscription, h.resolveFrom, h.resolveGlobal, h.simpleTypes, h.builtin, h.tag]

end SameNames

/-! ## One node after the other -/

/-- Binds the names of one node, whether or not that has been done. -/
def bindNode (g : Graph) (id : NodeId) : Except Halt Graph :=
  match bind g id with
  | .error error => .error ⟨error, g⟩
  | .ok payload => .ok (g.modifyNode id fun node => { node with payload, resolved := true })

/-- The nodes from `first` on whose names have not been bound, in the order of their creation. -/
def pending (g : Graph) (first : NodeId) : List NodeId :=
  (List.range' first (g.nodes.size - first)).filter fun n => !(g.nodeAt n).resolved

/-- The graph `g'` is `g` with the names of some nodes bound, and the same in all else. -/
structure Bound (g : Graph) (nodes : List NodeId) (g' : Graph) : Prop where
  rest : g' = { g with nodes := g'.nodes }
  size : g'.nodes.size = g.nodes.size
  bound : ∀ n ∈ nodes, ∃ payload, bind g n = .ok payload ∧
    g'.nodeAt n = { g.nodeAt n with payload, resolved := true }
  same : ∀ n, n ∉ nodes → g'.nodeAt n = g.nodeAt n

/-- What comes of binding nodes one after the other: all are bound, or those before one that cannot
be bound. -/
inductive BindsEach (g : Graph) (nodes : List NodeId) : Except Halt Graph → Prop
  | all {g' : Graph} (h : Bound g nodes g') : BindsEach g nodes (.ok g')
  | stopped {before after : List NodeId} {n : NodeId} {e : SchemaError} {g' : Graph}
      (hnodes : nodes = before ++ n :: after) (h : Bound g before g')
      (herror : bind g n = .error e) : BindsEach g nodes (.error ⟨e, g'⟩)

variable {g g' : Graph} {first : Nat}

namespace Bound

variable {nodes : List NodeId}

theorem sameNames (h : Bound g nodes g') : SameNames g g' := by
  have hrest := h.rest
  refine .of_nodes (by rw [hrest]) (by rw [hrest]) (by rw [hrest]) fun n => ?_
  by_cases hn : n ∈ nodes
  · obtain ⟨payload, _, heq⟩ := h.bound n hn
    rw [heq]
    rfl
  · rw [h.same n hn]

/-- One more node is bound. -/
theorem step (h : Bound g nodes g') {n : NodeId} (hn : n ∉ nodes) (hlt : n < g.nodes.size)
    {payload : Payload} (hbind : bind g n = .ok payload) :
    Bound g (nodes ++ [n])
      (g'.modifyNode n fun node => { node with payload, resolved := true }) where
  rest := by
    have hrest := h.rest
    unfold Graph.modifyNode
    rw [hrest]
  size := by rw [Graph.modifyNode_nodes_size]; exact h.size
  bound i hi := by
    rcases List.mem_append.mp hi with hold | hnew
    · have hne : i ≠ n := fun he => hn (he ▸ hold)
      rw [Graph.nodeAt_modifyNode_ne _ _ _ hne]
      exact h.bound i hold
    · cases List.mem_singleton.mp hnew
      refine ⟨payload, hbind, ?_⟩
      rw [Graph.nodeAt_modifyNode_self _ _ _ (by rw [h.size]; exact hlt), h.same n hn]
  same i hi := by
    have hne : i ≠ n := fun he => hi (List.mem_append_right _ (List.mem_singleton.mpr he))
    rw [Graph.nodeAt_modifyNode_ne _ _ _ hne]
    exact h.same i fun hold => hi (List.mem_append_left _ hold)

/-- A node that has not been bound is bound as in the graph before. -/
theorem bindNode_eq (h : Bound g nodes g') {n : NodeId} (hn : n ∉ nodes) :
    bindNode g' n = match bind g n with
      | .error error => .error ⟨error, g'⟩
      | .ok payload => .ok (g'.modifyNode n fun node => { node with payload, resolved := true }) := by
  unfold bindNode
  rw [h.sameNames.bind n (by rw [h.same n hn])]

/-- Binding goes on from node to node. -/
theorem foldlM_bindNode {more : List NodeId} (h : Bound g nodes g')
    (hnodup : (nodes ++ more).Nodup) (hlt : ∀ n ∈ more, n < g.nodes.size) :
    BindsEach g (nodes ++ more) (more.foldlM bindNode g') := by
  induction more generalizing nodes g' with
  | nil =>
    rw [List.append_nil]
    exact .all h
  | cons n more ih =>
    have hn : n ∉ nodes := fun hmem =>
      (List.nodup_append.mp hnodup).2.2 n hmem n List.mem_cons_self rfl
    rw [List.foldlM_cons, h.bindNode_eq hn]
    cases hbind : bind g n with
    | error e => exact .stopped rfl h hbind
    | ok payload =>
      have hstep := h.step hn (hlt n List.mem_cons_self) hbind
      have happend : nodes ++ n :: more = nodes ++ [n] ++ more := by simp
      rw [happend] at hnodup ⊢
      exact ih hstep hnodup fun i hi => hlt i (List.mem_cons_of_mem _ hi)

end Bound

theorem bound_nil (g : Graph) : Bound g [] g where
  rest := rfl
  size := rfl
  bound _ hn := by cases hn
  same _ _ := rfl

/-- Binding nodes in any order binds them as in the graph before. -/
theorem bindsEach {nodes : List NodeId} (hnodup : nodes.Nodup) (hlt : ∀ n ∈ nodes, n < g.nodes.size) :
    BindsEach g nodes (nodes.foldlM bindNode g) :=
  (bound_nil g).foldlM_bindNode hnodup hlt

/-! ## The nodes that have not been bound -/

theorem mem_pending {n : Nat} : n ∈ pending g first ↔
    (first ≤ n ∧ n < g.nodes.size) ∧ (g.nodeAt n).resolved = false := by
  rw [pending, List.mem_filter, List.mem_range'_1, Bool.not_eq_true']
  refine and_congr_left fun _ => ?_
  omega

theorem pending_nodup : (pending g first).Nodup :=
  List.Nodup.filter _ List.nodup_range'

/-- Nodes that have been bound are passed over. -/
theorem foldlM_resolveNode {nodes : List NodeId} (hnodup : nodes.Nodup) (g : Graph) :
    nodes.foldlM resolveNode g =
      (nodes.filter fun n => !(g.nodeAt n).resolved).foldlM bindNode g := by
  induction nodes generalizing g with
  | nil => rfl
  | cons n nodes ih =>
    obtain ⟨hn, hnodup⟩ := List.nodup_cons.mp hnodup
    rw [List.foldlM_cons, List.filter_cons, resolveNode]
    cases hresolved : (g.nodeAt n).resolved with
    | true => exact ih hnodup g
    | false =>
      change (bindNode g n >>= fun g' => nodes.foldlM resolveNode g') =
        (n :: nodes.filter fun i => !(g.nodeAt i).resolved).foldlM bindNode g
      rw [List.foldlM_cons, bindNode]
      cases hbind : bind g n with
      | error e => rfl
      | ok payload =>
        -- the nodes after this one are as they were
        have hsame : ∀ i ∈ nodes, (!((g.modifyNode n fun node =>
            { node with payload, resolved := true }).nodeAt i).resolved) =
              !(g.nodeAt i).resolved := by
          intro i hi
          have hne : i ≠ n := fun he => hn (he ▸ hi)
          rw [Graph.nodeAt_modifyNode_ne _ _ _ hne]
        rw [← List.filter_congr hsame]
        exact ih hnodup _

theorem resolveAll_eq (g : Graph) (first : NodeId) :
    resolveAll g first = (pending g first).foldlM bindNode g :=
  foldlM_resolveNode List.nodup_range' g

theorem resolveAll_bindsEach (g : Graph) (first : NodeId) :
    BindsEach g (pending g first) (resolveAll g first) := by
  rw [resolveAll_eq]
  exact bindsEach pending_nodup fun n hn => (mem_pending.mp hn).1.2

/-- The graph `g'` is `g` with the nodes from `first` up to `last` bound. -/
structure Resolved (g : Graph) (first last : NodeId) (g' : Graph) : Prop where
  scopes : g'.scopes = g.scopes
  namespaces : g'.namespaces = g.namespaces
  documents : g'.documents = g.documents
  policy : g'.policy = g.policy
  size : g'.nodes.size = g.nodes.size
  bound : ∀ n, first ≤ n → n < last → ∃ payload, bind g n = .ok payload ∧
    g'.nodeAt n = { g.nodeAt n with payload, resolved := true }
  same : ∀ n, ¬ (first ≤ n ∧ n < last) → g'.nodeAt n = g.nodeAt n

namespace Resolved

variable {last : Nat}

theorem sameNames (h : Resolved g first last g') : SameNames g g' := by
  refine .of_nodes h.scopes h.namespaces h.documents fun n => ?_
  by_cases hn : first ≤ n ∧ n < last
  · obtain ⟨payload, _, heq⟩ := h.bound n hn.1 hn.2
    rw [heq]
    rfl
  · rw [h.same n hn]

end Resolved

/-- Binding all nodes from `first` on binds them all, or stops at one that cannot be bound. -/
theorem resolveAll_cases
    (hpending : ∀ n, first ≤ n → n < g.nodes.size → (g.nodeAt n).resolved = false) :
    (∃ g', resolveAll g first = .ok g' ∧ Resolved g first g.nodes.size g') ∨
    ∃ n e g', first ≤ n ∧ n < g.nodes.size ∧ bind g n = .error e ∧
      resolveAll g first = .error ⟨e, g'⟩ := by
  have hmem : ∀ n, n ∈ pending g first ↔ first ≤ n ∧ n < g.nodes.size := fun n =>
    mem_pending.trans (and_iff_left_of_imp fun hn => hpending n hn.1 hn.2)
  have heach := resolveAll_bindsEach g first
  cases hall : resolveAll g first with
  | ok g' =>
    rw [hall] at heach
    cases heach with
    | all h =>
      have hrest := h.rest
      refine Or.inl ⟨g', rfl, by rw [hrest], by rw [hrest], by rw [hrest], by rw [hrest], h.size, ?_, ?_⟩
      · exact fun n hn hlt => h.bound n ((hmem n).mpr ⟨hn, hlt⟩)
      · exact fun n hn => h.same n fun hin => hn ((hmem n).mp hin)
  | error halt =>
    rw [hall] at heach
    cases heach with
    | @stopped before after n e g' hnodes h herror =>
      have hn : n ∈ pending g first := by
        rw [hnodes]
        exact List.mem_append_right _ List.mem_cons_self
      obtain ⟨hnew, hlt⟩ := (hmem n).mp hn
      exact Or.inr ⟨n, e, g', hnew, hlt, herror, rfl⟩

end Resolution

end XsdTypes
