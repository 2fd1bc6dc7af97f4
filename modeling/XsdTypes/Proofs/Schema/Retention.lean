import XsdTypes.Proofs.Schema.Prefixes

/-!
# The nodes that stay

Reading adds nodes to a graph and changes those that are there, but takes none away and never makes a
node that of another tag. This needs nothing of the graph, which may be any.
-/

namespace XsdTypes

open Sequencing

namespace Graph

variable {g g' : Graph}

/-- The nodes of `g` are there in `g'`, and are those of the same tags. -/
structure Retains (g g' : Graph) : Prop where
  size : g.nodes.size ≤ g'.nodes.size
  tag : ∀ id, id < g.nodes.size → (g'.nodeAt id).tag = (g.nodeAt id).tag

namespace Retains

theorem refl (g : Graph) : g.Retains g := ⟨Nat.le_refl _, fun _ _ => rfl⟩

theorem trans {g'' : Graph} (h : g.Retains g') (h' : g'.Retains g'') : g.Retains g'' where
  size := Nat.le_trans h.size h'.size
  tag id hid := (h'.tag id (Nat.lt_of_lt_of_le hid h.size)).trans (h.tag id hid)

theorem of_nodes (h : g'.nodes = g.nodes) : g.Retains g' := by
  refine ⟨Nat.le_of_eq (congrArg Array.size h.symm), fun id _ => ?_⟩
  rw [nodeAt, nodeAt, h]

theorem addNode (g : Graph) (node : Node) : g.Retains (g.addNode node).1 := by
  refine ⟨?_, fun id hid => ?_⟩
  · rw [addNode_nodes_size]
    exact Nat.le_succ _
  · rw [nodeAt_addNode_of_lt _ _ hid]

theorem modifyNode (h : g.Retains g') (id : NodeId) {f : Node → Node} (hf : ∀ n, (f n).tag = n.tag) :
    g.Retains (g'.modifyNode id f) := by
  refine ⟨Nat.le_trans h.size (Nat.le_of_eq (g'.modifyNode_nodes_size id f).symm), fun n hn => ?_⟩
  rw [nodeAt_modifyNode, ← h.tag n hn]
  split
  · exact hf _
  · rfl

end Retains

end Graph

namespace Reading

variable {request : Request} {g g' : Graph} {r r' : Reading}

/-! ## What a tag does to the graph -/

/-- The graph after the node of a tag has got a scope for its content, and this scope; `scope` is the
one in which the tag stands. -/
def openOwn (g : Graph) (id : NodeId) (scope : ScopeId) (opensScope : Bool) : Graph × ScopeId :=
  if opensScope then
    ((g.addScope (some scope) (g.scopeAt scope).ns).1.modifyNode id
      fun node => { node with ownScope := some g.scopes.size }, g.scopes.size)
  else (g, scope)

/-- The effect of a tag is carried out in this order, also if the declaration fails. -/
theorem perform_eq (g : Graph) (id : NodeId) (scope : ScopeId) (f : Frame) (e : Effect) :
    perform g id scope f e =
      match e.declares with
      | some reg =>
        (register (((g.mark f.node e).contribute f.node e).bear id e) id (some f.tag) reg).map
          fun g => openOwn g id scope e.opensScope
      | none => .ok (openOwn (((g.mark f.node e).contribute f.node e).bear id e) id scope e.opensScope) := by
  unfold perform
  extract_lets g₁ g₂ g₃
  have hg₃ : g₃ = ((g.mark f.node e).contribute f.node e).bear id e := rfl
  rw [← hg₃]
  cases e.declares with
  | none =>
    change (if e.opensScope = true then _ else _) = _
    unfold openOwn
    cases e.opensScope <;> rfl
  | some reg =>
    change (register g₃ id (some f.tag) reg).bind _ = (register g₃ id (some f.tag) reg).map _
    cases register g₃ id (some f.tag) reg with
    | error fault => rfl
    | ok g₄ =>
      change (if e.opensScope = true then _ else _) = Except.ok (openOwn g₄ id scope e.opensScope)
      unfold openOwn
      cases e.opensScope <;> rfl

theorem retains_of_keeps {f : Node → Node} (hf : Node.Keeps f) (h : g.Retains g') (id : NodeId) :
    g.Retains (g'.modifyNode id f) :=
  h.modifyNode id fun n => tag_eq_of_core (hf.core n)

theorem retains_of_register {id : NodeId} {parentTag : Option Tag} {reg : Registration}
    (hok : register g id parentTag reg = .ok g') : g.Retains g' := by
  have hdeclare : ∀ {d : Declaration} {target : ScopeId}, g.declare d target = .ok g' →
      g.Retains g' := by
    intro d target hd
    rcases Graph.declare_eq_ok hd with ⟨rfl, _⟩ | ⟨scope, _, rfl⟩
    · exact .refl _
    · have hscope : g.Retains (g.modifyScope target fun _ => scope) := .of_nodes rfl
      exact hscope.modifyNode d.node fun _ => rfl
  unfold register at hok
  cases hname : reg.name with
  | none =>
    simp only [hname] at hok
    exact hdeclare hok
  | some name =>
    simp only [hname] at hok
    split at hok
    · cases hok
      have hscope : g.Retains (g.modifyScope (g.nodeAt id).scope fun scope =>
        scope.replace ⟨some name, reg.space, id, .once⟩) := .of_nodes rfl
      exact (hscope.modifyNode id (f := fun n => { n with name := some name }) fun _ => rfl).trans
        (.of_nodes rfl)
    · exact hdeclare hok

theorem perform_retains {id : NodeId} {scope own : ScopeId} {f : Frame} {e : Effect}
    (hok : perform g id scope f e = .ok (g', own)) : g.Retains g' := by
  have hmark : g.Retains (g.mark f.node e) := by
    unfold Graph.mark
    split
    · exact retains_of_keeps Graph.keeps_markMixed (.refl g) f.node
    · exact .refl g
  have hcontribute : g.Retains ((g.mark f.node e).contribute f.node e) := by
    unfold Graph.contribute
    split
    · exact retains_of_keeps (Graph.keeps_addEnumeration _) hmark f.node
    · exact hmark
  have hbear : g.Retains (((g.mark f.node e).contribute f.node e).bear id e) := by
    unfold Graph.bear
    split
    · exact hcontribute.modifyNode id fun _ => rfl
    · exact hcontribute
  have hown : ∀ {g₁ : Graph}, g.Retains g₁ → openOwn g₁ id scope e.opensScope = (g', own) →
      g.Retains g' := by
    intro g₁ h₁ hopen
    unfold openOwn at hopen
    split at hopen
    · cases hopen
      have hscope : g.Retains (g₁.addScope (some scope) (g₁.scopeAt scope).ns).1 :=
        h₁.trans (.of_nodes rfl)
      exact hscope.modifyNode id fun _ => rfl
    · cases hopen
      exact h₁
  rw [perform_eq] at hok
  cases hdeclares : e.declares with
  | none =>
    simp only [hdeclares, Except.ok.injEq] at hok
    exact hown hbear hok
  | some reg =>
    simp only [hdeclares] at hok
    obtain ⟨g₁, hregister, hok⟩ := map_eq_ok.mp hok
    exact hown (hbear.trans (retains_of_register hregister)) hok

theorem addTagNode_retains (r : Reading) (parent : Option Frame) (tag : Tag) (position : Position)
    (attributes : List (String × String)) :
    r.graph.Retains (r.addTagNode parent tag position attributes).1.graph := by
  cases parent with
  | none => exact .addNode r.graph _
  | some f => exact (Graph.Retains.addNode r.graph _).modifyNode f.node fun _ => rfl

theorem openSchema_retains (request : Request) (r : Reading) (id : NodeId)
    (attributes : List (String × String)) :
    r.graph.Retains (openSchema request r id attributes).graph := by
  unfold openSchema
  have hregister : r.graph.Retains
      (r.graph.register (documentUri request (attributes.lookup "targetNamespace"))).1 :=
    .of_nodes (Graph.register_nodes r.graph _)
  refine Graph.Retains.modifyNode (hregister.trans (.of_nodes ?_)) id fun _ => ?_ <;> rfl

theorem openTag_retains {id : NodeId} {f : Frame} {tag : Tag} {position : Position}
    {attributes : List (String × String)}
    (hok : openTag request r id f tag position attributes = .ok r') : r.graph.Retains r'.graph := by
  obtain ⟨e, own, g, _, hperform, rfl⟩ := openTag_eq_ok hok
  have hpayload := (Graph.Retains.refl r.graph).modifyNode id (f := fun node => { node with
    payload := (siteOf request r id f tag position attributes).plan.payload }) fun _ => rfl
  exact hpayload.trans (perform_retains hperform)

theorem Listens.retains (h : r.Listens r') : r.graph.Retains r'.graph := by
  rcases h.graph with heq | ⟨id, f, hf, heq⟩ <;> rw [heq]
  · exact .refl _
  · exact retains_of_keeps hf (.refl _) id

/-- No event takes a node away or makes it the node of another tag. -/
theorem step_retains {item : Position × Markup.Event} (hok : step request r item = .ok r') :
    r.graph.Retains r'.graph := by
  obtain ⟨position, event⟩ := item
  cases event with
  | opened name attributes =>
    rw [step_opened] at hok
    rcases opened_cases request r position name attributes with
      ⟨skipped, diagnostics, heq⟩ | ⟨error, heq⟩ | heq | ⟨f, tag, _, _, heq⟩
    · cases heq.symm.trans hok
      exact .of_nodes rfl
    · cases heq.symm.trans hok
    · cases heq.symm.trans hok
      exact (addTagNode_retains (r.within attributes) none .schema position _).trans
        (openSchema_retains request _ _ _)
    · exact (addTagNode_retains (r.within attributes) (some f) tag position _).trans
        (openTag_retains (heq.symm.trans hok))
  | closed =>
    cases hok
    exact (closed_listens r).retains
  | text content =>
    cases hok
    exact (text_listens r content).retains

theorem run_retains {items : List (Position × Markup.Event)}
    (hok : items.foldlM (step request) r = .ok r') : r.graph.Retains r'.graph := by
  have hstep : ∀ r₁, ∀ item ∈ items, ∀ r₂, r.graph.Retains r₁.graph →
      step request r₁ item = .ok r₂ → r.graph.Retains r₂.graph :=
    fun _ _ _ _ h hstep => h.trans (step_retains hstep)
  exact foldlM_keeps hstep (.refl r.graph) hok

end Reading

end XsdTypes
