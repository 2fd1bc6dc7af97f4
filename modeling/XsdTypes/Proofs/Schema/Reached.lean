import XsdTypes.Proofs.Schema.Loaded
import XsdTypes.Proofs.Schema.Placement

/-!
# Graphs that can be reached

A graph starts with what is built in, and documents are read and loaded into it one after the other,
with success or without. However this is done, its namespaces, scopes, nodes and documents refer to
each other as they should (`WellFormed`). What the steps of a load keep is kept by all that can be
done with documents (`LoadInvariant`).
-/

namespace XsdTypes

open Sequencing

namespace Graph

variable {g g' : Graph} {first : Nat}

/-! ## Loading -/

/-- A property of graphs that every step of a load keeps, whether the step succeeds or not. -/
structure LoadInvariant (P : Graph → Prop) : Prop where
  register : ∀ {g : Graph} (uri : String), P g → P (g.register uri).1
  read : ∀ {g : Graph} (request : Request) (text : String), P g →
    Yields (fun result => P result.1) (fun halt => P halt.graph) (Reading.read request g text)
  modifyNode : ∀ {g : Graph} {f : Node → Node} (id : NodeId),
    (f (g.nodeAt id)).core = (g.nodeAt id).core →
    (f (g.nodeAt id)).children = (g.nodeAt id).children → P g → P (g.modifyNode id f)
  markLoaded : ∀ {g : Graph}, P g → P (Loading.markLoaded g)

namespace LoadInvariant

variable {P : Graph → Prop} {l : Loading}

theorem enqueue (h : LoadInvariant P) (hl : P l.graph) (request : Request) :
    P (l.enqueue request).graph := by
  rcases (Loading.enqueue_cases l request).2.2 with heq | ⟨uri, heq⟩ <;> rw [heq]
  · exact hl
  · exact h.register uri hl

theorem enqueueAll (h : LoadInvariant P) (hl : P l.graph) (requests : List Request) :
    P (requests.foldl Loading.enqueue l).graph :=
  List.foldlRecOn (motive := fun l => P l.graph) requests Loading.enqueue hl
    fun _ hl request _ => h.enqueue hl request

theorem receive (h : LoadInvariant P) (hl : P l.graph) (request : Request)
    (answer : Except FetchFault String) :
    Yields (fun l => P l.graph) (fun halt => P halt.graph) (l.receive request answer) := by
  unfold Loading.receive
  split
  · split <;> exact hl
  · exact (h.read request _ hl).bind fun result hresult => h.enqueueAll hresult _

theorem run (h : LoadInvariant P) (hl : P l.graph) (documents : String → Except FetchFault String)
    (limit : Nat) :
    Yields (fun l => P l.graph) (fun halt => P halt.graph)
      (Loading.run (m := Id) documents limit l) := by
  induction limit generalizing l with
  | zero =>
    unfold Loading.run
    split <;> exact hl
  | succ limit ih =>
    cases hpending : l.pending with
    | nil =>
      unfold Loading.run
      rw [hpending]
      exact hl
    | cons request pending =>
      rw [Loading.run_cons documents limit hpending]
      have hreceive := receive (l := { l with pending }) h hl request (documents request.url)
      split
      · rename_i halt hhalt
        rw [hhalt] at hreceive
        exact hreceive
      · rename_i next hnext
        rw [hnext] at hreceive
        exact ih hreceive

theorem resolveNode (h : LoadInvariant P) (hg : P g) (id : NodeId) :
    Yields P (fun halt => P halt.graph) (Resolution.resolveNode g id) := by
  unfold Resolution.resolveNode
  split
  · exact hg
  split
  · exact hg
  · rename_i payload hbind
    refine h.modifyNode id ?_ rfl hg
    simp only [Node.core, (Resolution.bind_eq_ok_iff.mp hbind).written]

theorem finish (h : LoadInvariant P) (hl : P l.graph) (url : String) (new : NodeId) :
    Yields (fun result => P result.1) (fun halt => P halt.graph) (l.finish url new) := by
  refine (Yields.foldlM (fun g id hg => h.resolveNode hg id) _ hl).bind fun g hg => ?_
  split <;> exact h.markLoaded hg

theorem load (h : LoadInvariant P) (hg : P g) (documents : String → Except FetchFault String)
    (limit : Nat) (url : String) (ns : Option String) :
    Yields (fun result => P result.1) (fun halt => P halt.graph)
      (Loading.load (m := Id) documents limit g url ns) := by
  have hstart : P (Loading.start g url ns).graph := h.enqueue hg (.entry url ns)
  have hrun := h.run hstart documents limit
  cases hread : g.documentId? url with
  | some id =>
    unfold Loading.load
    rw [hread]
    exact hg
  | none =>
    rw [Loading.load_unread documents limit hread]
    split
    · rename_i halt hhalt
      rw [hhalt] at hrun
      exact hrun
    · rename_i l hl
      rw [hl] at hrun
      exact h.finish hrun url _

end LoadInvariant

/-! ## Calls -/

/-- The graph that is left, whether all went well or not. -/
def left {α : Type} : Except Halt (Graph × α) → Graph
  | .ok (g, _) => g
  | .error halt => halt.graph

/-- What can be done to a graph with documents. -/
inductive Call where
  /-- A document is read. -/
  | read (request : Request) (text : String)
  /-- A document is loaded, and all that it refers to. -/
  | load (documents : String → Except FetchFault String) (limit : Nat) (url : String)
      (ns : Option String)

/-- Does it. -/
def Call.perform (g : Graph) : Call → Graph
  | .read request text => left (Reading.read request g text)
  | .load documents limit url ns => left (Loading.load (m := Id) documents limit g url ns)

theorem LoadInvariant.call {P : Graph → Prop} (h : LoadInvariant P) (hg : P g) (call : Call) :
    P (call.perform g) := by
  have hleft : ∀ {α : Type} {result : Except Halt (Graph × α)},
      Yields (fun result => P result.1) (fun halt => P halt.graph) result → P (left result) := by
    intro α result hresult
    cases result with
    | ok result => exact hresult
    | error halt => exact hresult
  cases call with
  | read request text => exact hleft (h.read request text hg)
  | load documents limit url ns => exact hleft (h.load hg documents limit url ns)

/-! ## Intact graphs -/

/-- Nothing has been read yet. -/
theorem intact_initial (policy : RepeatPolicy) :
    (initial policy).Intact (initial policy).nodes.size := by
  have hempty := Array.isEmpty_iff.mp (initial_documents policy)
  have hnode : ∀ n, n < (initial policy).nodes.size → ((initial policy).nodeAt n).parent = none ∧
      ((initial policy).nodeAt n).tag ≠ .schema := by
    intro n hn
    have hbuiltin := initial_nodes policy hn
    refine ⟨?_, fun htag => ?_⟩
    · simp only [isBuiltinNode, Bool.and_eq_true, Option.isNone_iff_eq_none] at hbuiltin
      exact hbuiltin.1.1.2
    · rcases isBuiltinNode_cases hbuiltin with ⟨h, _⟩ | ⟨h, _⟩ <;> rw [htag] at h <;> cases h
  refine ⟨initial_sound policy, ⟨fun d hd => ?_, fun i hi => ?_⟩,
    ⟨fun n hfirst hn => absurd hn (Nat.not_lt.mpr hfirst), fun n hn htag => absurd htag (hnode n hn).2,
      fun n p hn hparent => ?_⟩, initial_schemaNamespace_lt policy⟩
  · rw [hempty] at hd
    cases hd
  · have hall : (initial .standard).namespaces.items.all (fun ns => ns.documents.isEmpty) = true := by
      decide +kernel
    rw [initial_policy, withPolicy_namespaces] at hi
    rw [hempty, initial_policy, namespaceAt_withPolicy, namespaceAt_eq_getElem _ hi]
    exact List.isEmpty_iff.mp (Array.all_eq_true.mp hall i hi)
  · rw [(hnode n hn).1] at hparent
    cases hparent

theorem loadInvariant_intact (first : Nat) : LoadInvariant (Intact first) where
  register uri h := h.register uri
  read request text h := Reading.read_intact h request text
  modifyNode id hcore hchildren h := h.modifyNode id hcore hchildren
  markLoaded h := h.extend (Loading.sound_markLoaded h.sound) (Loading.extends_markLoaded _)
    (h.catalogued.congr rfl (Loading.markLoaded_namespaces_size _) (Loading.markLoaded_documents _))
    (Follows.markLoaded _) rfl

namespace Intact

theorem resolveNode (h : g.Intact first) (id : NodeId) :
    Yields (Intact first) (fun halt => halt.graph.Intact first) (Resolution.resolveNode g id) :=
  (loadInvariant_intact first).resolveNode h id

theorem enqueue {l : Loading} (h : l.graph.Intact first) (request : Request) :
    (l.enqueue request).graph.Intact first :=
  (loadInvariant_intact first).enqueue h request

theorem receive {l : Loading} (h : l.graph.Intact first) (request : Request)
    (answer : Except FetchFault String) :
    Yields (fun l => l.graph.Intact first) (fun halt => halt.graph.Intact first)
      (l.receive request answer) :=
  (loadInvariant_intact first).receive h request answer

theorem load (h : g.Intact first) (documents : String → Except FetchFault String) (limit : Nat)
    (url : String) (ns : Option String) :
    Yields (fun result => result.1.Intact first) (fun halt => halt.graph.Intact first)
      (Loading.load (m := Id) documents limit g url ns) :=
  (loadInvariant_intact first).load h documents limit url ns

theorem calls (h : g.Intact first) (calls : List Call) :
    (calls.foldl Call.perform g).Intact first :=
  List.foldlRecOn calls Call.perform h fun _ hg call _ => (loadInvariant_intact first).call hg call

end Intact

/-! ## Well-formed graphs -/

/-- Namespaces, scopes, nodes and documents refer to each other as they should. The nodes from
`first` on are those of documents. -/
structure WellFormed (first : Nat) (g : Graph) : Prop where
  /-- A namespace is found by its URI and by no other. -/
  namespaceId? : ∀ uri i, g.namespaceId? uri = some i ↔
    i < g.namespaces.size ∧ (g.namespaceAt i).uri = uri
  /-- The scopes without a parent are the root scopes of the namespaces. -/
  root : ∀ s, (s < g.scopes.size ∧ (g.scopeAt s).parent = none) ↔
    ∃ i, i < g.namespaces.size ∧ (g.namespaceAt i).root = s
  root_ns : ∀ i, i < g.namespaces.size → (g.scopeAt (g.namespaceAt i).root).ns = i
  root_inj : ∀ i j, i < g.namespaces.size → j < g.namespaces.size →
    (g.namespaceAt i).root = (g.namespaceAt j).root → i = j
  scope_parent : ∀ s p : Nat, s < g.scopes.size → (g.scopeAt s).parent = some p →
    p < s ∧ (g.scopeAt p).ns = (g.scopeAt s).ns
  /-- Looking outwards from a scope comes to an end within as many steps as there are scopes. -/
  findOutward? : ∀ symbol s fuel, s < g.scopes.size → g.scopes.size ≤ fuel →
    g.findOutward? symbol fuel s = g.findOutward? symbol g.scopes.size s
  parent_lt : ∀ n p : Nat, n < g.nodes.size → (g.nodeAt n).parent = some p → p < n
  child_lt : ∀ n, n < g.nodes.size → ∀ c ∈ (g.nodeAt n).children, c < g.nodes.size
  mem_children : ∀ n c : Nat, n < g.nodes.size → c < g.nodes.size →
    (c ∈ (g.nodeAt n).children ↔ (g.nodeAt c).parent = some n)
  children_sorted : ∀ n, n < g.nodes.size → (g.nodeAt n).children.Pairwise (· < ·)
  scope_lt : ∀ n, n < g.nodes.size → (g.nodeAt n).scope < g.scopes.size
  own_parent : ∀ n s : Nat, n < g.nodes.size → (g.nodeAt n).tag ≠ .schema →
    (g.nodeAt n).ownScope = some s → s < g.scopes.size ∧
      (g.scopeAt s).parent = some (g.nodeAt n).scope
  /-- The content of a document stands in the root scope of its namespace. -/
  schema : ∀ n, n < g.nodes.size → (g.nodeAt n).tag = .schema → ∃ d,
    (g.nodeAt n).document = some d ∧ d < g.documents.size ∧
      (g.nodeAt n).scope = (g.namespaceAt (g.documentAt d).ns).root ∧
      (g.nodeAt n).ownScope = some (g.namespaceAt (g.documentAt d).ns).root
  declared : ∀ s, ∀ d ∈ (g.scopeAt s).entries, d.node < g.nodes.size ∧ (g.nodeAt d.node).scope = s
  /-- What a document declares in a root scope stands directly in `schema` or `redefine`. -/
  global : ∀ s, (g.scopeAt s).parent = none → ∀ d ∈ (g.scopeAt s).entries, first ≤ d.node →
    ∃ p, (g.nodeAt d.node).parent = some p ∧
      ((g.nodeAt p).tag = .schema ∨ (g.nodeAt p).tag = .redefineDoc)
  document_ns : ∀ d, d < g.documents.size → (g.documentAt d).ns < g.namespaces.size
  /-- A namespace lists the documents that declare things in it, in order. -/
  listed : ∀ i, i < g.namespaces.size → (g.namespaceAt i).documents =
    (List.range g.documents.size).filter fun d => (g.documentAt d).ns = i

theorem namespaceId?_eq_some_iff (h : g.Registry) {uri : String} {i : NamespaceId} :
    g.namespaceId? uri = some i ↔ i < g.namespaces.size ∧ (g.namespaceAt i).uri = uri := by
  refine ⟨namespaceId?_eq_some, fun ⟨hi, huri⟩ => ?_⟩
  cases hfind : g.namespaceId? uri with
  | none => exact absurd huri (namespaceId?_eq_none hfind i hi)
  | some j =>
    obtain ⟨hj, huri'⟩ := namespaceId?_eq_some hfind
    rw [h.uri_inj j i hj hi (huri'.trans huri.symm)]

theorem root_iff (h : g.Registry) {s : ScopeId} :
    (s < g.scopes.size ∧ (g.scopeAt s).parent = none) ↔
      ∃ i, i < g.namespaces.size ∧ (g.namespaceAt i).root = s := by
  constructor
  · rintro ⟨hs, hnone⟩
    exact ⟨_, h.ns_lt s hs, h.root_of_parent s hs hnone⟩
  · rintro ⟨i, hi, rfl⟩
    exact ⟨h.root_lt i hi, h.root_parent i hi⟩

theorem root_injective (h : g.Registry) {i j : NamespaceId} (hi : i < g.namespaces.size)
    (hj : j < g.namespaces.size) (hroot : (g.namespaceAt i).root = (g.namespaceAt j).root) :
    i = j := by
  rw [← h.root_ns i hi, hroot, h.root_ns j hj]

/-- Looking outwards from a scope takes no more steps than there are scopes up to it. -/
theorem findOutward?_of_lt (h : g.Registry) (symbol : SchemaSymbol) {s : ScopeId}
    (hs : s < g.scopes.size) {fuel : Nat} (hfuel : s < fuel) :
    g.findOutward? symbol fuel s = g.findOutward? symbol (s + 1) s := by
  induction s using Nat.strong_induction_on generalizing fuel with
  | _ s ih =>
    obtain ⟨fuel, rfl⟩ := Nat.exists_eq_succ_of_ne_zero (Nat.ne_zero_of_lt hfuel)
    unfold Graph.findOutward?
    cases (g.scopeAt s).find? symbol with
    | some d => rfl
    | none =>
      cases hparent : (g.scopeAt s).parent with
      | none => rfl
      | some p =>
        have hp := h.parent_lt s p hs hparent
        have hlt := Nat.lt_trans hp hs
        simp only
        rw [ih p hp hlt (Nat.lt_of_lt_of_le hp (Nat.le_of_lt_succ hfuel)), ih p hp hlt hp]

theorem not_fits_schema (space : SymbolSpace) : space.fits .schema = false := by
  cases space <;> rfl

namespace Intact

/-- What a document declares in a root scope stands directly in `schema` or `redefine`. -/
theorem global (h : g.Intact first) {s : ScopeId} (hroot : (g.scopeAt s).parent = none)
    {d : Declaration} (hd : d ∈ (g.scopeAt s).entries) (hnew : first ≤ d.node) :
    ∃ p, (g.nodeAt d.node).parent = some p ∧
      ((g.nodeAt p).tag = .schema ∨ (g.nodeAt p).tag = .redefineDoc) := by
  have hdeclared := h.sound.declared.entry s d hd
  have hfits := hdeclared.fits
  cases hparent : (g.nodeAt d.node).parent with
  | none =>
    rw [h.placed.outermost d.node hnew hdeclared.node_lt hparent, not_fits_schema] at hfits
    cases hfits
  | some p =>
    have houter := h.placed.global d.node p hdeclared.node_lt hparent
      (by rw [hdeclared.scope]; exact hroot)
    have hmay := h.sound.tree.parent_contains d.node p hdeclared.node_lt hparent
    exact ⟨p, rfl, Tag.eq_of_isOuter houter hmay hfits⟩

theorem wellFormed (h : g.Intact first) : g.WellFormed first where
  namespaceId? _ _ := namespaceId?_eq_some_iff h.sound.registry
  root _ := root_iff h.sound.registry
  root_ns := h.sound.registry.root_ns
  root_inj _ _ := root_injective h.sound.registry
  scope_parent s p hs hp :=
    ⟨h.sound.registry.parent_lt s p hs hp, h.sound.registry.parent_ns s p hs hp⟩
  findOutward? symbol s fuel hs hfuel := by
    rw [findOutward?_of_lt h.sound.registry symbol hs (Nat.lt_of_lt_of_le hs hfuel),
      findOutward?_of_lt h.sound.registry symbol hs hs]
  parent_lt := h.sound.tree.parent_lt
  child_lt := h.sound.tree.child_lt
  mem_children := h.sound.tree.mem_children
  children_sorted := h.sound.tree.children_sorted
  scope_lt := h.sound.tree.scope_lt
  own_parent n s hn htag hown := by
    refine ⟨h.sound.tree.own_lt n s hn hown, ?_⟩
    rcases h.sound.tree.own_parent n s hn hown with hparent | ⟨_, _, hschema⟩
    · exact hparent
    · exact absurd hschema htag
  schema n hn htag := by
    obtain ⟨d, hdocument, hd, hscope, hown⟩ := h.placed.schema n hn htag
    exact ⟨d, hdocument, hd, hscope, hown.trans (congrArg some hscope)⟩
  declared s d hd :=
    ⟨(h.sound.declared.entry s d hd).node_lt, (h.sound.declared.entry s d hd).scope⟩
  global s hroot d hd hnew := h.global hroot hd hnew
  document_ns := h.catalogued.ns_lt
  listed := h.catalogued.listed

end Intact

/-- Whatever is read and loaded into a graph, in whatever order, and wherever this stops, the graph
is well-formed. -/
theorem calls_wellFormed (policy : RepeatPolicy) (calls : List Call) :
    (calls.foldl Call.perform (initial policy)).WellFormed (initial policy).nodes.size :=
  ((intact_initial policy).calls calls).wellFormed

-- a name that is declared twice stops the document, and the three nodes read so far stay
set_option maxRecDepth 100000 in
example : (Call.perform (initial .standard) (.read (.entry "a" none)
    ("<schema xmlns='http://www.w3.org/2001/XMLSchema'><element name='e'/>" ++
      "<element name='e'/></schema>"))).nodes.size = (initial .standard).nodes.size + 3 := by
  decide +kernel

end Graph

end XsdTypes
