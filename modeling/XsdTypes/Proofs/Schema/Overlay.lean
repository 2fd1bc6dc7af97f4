import XsdTypes.Proofs.Schema.Retention

/-!
# Reading on in two graphs at once

What is read next depends neither on the attributes of the nodes that are there nor on the tags that
were passed over before. So two graphs that differ in nothing else (`Graph.overlay`) keep to this
difference while the same events are read into both, and it is enough that the prefixes in force mean
the same, in whatever order they were declared (`Bindings.Agree`).
-/

namespace XsdTypes

open Sequencing

/-- A way in which a graph may differ from another one. -/
structure Overlay where
  /-- The reports that stand before those of the other graph. -/
  reports : List SchemaError := []
  /-- The attributes of a node, by its number and its attributes in the other graph. -/
  written : NodeId → List (String × String) → List (String × String) := fun _ attributes => attributes

/-- The graph that differs from `g` in this way. -/
def Graph.overlay (g : Graph) (v : Overlay) : Graph :=
  { g with
    nodes := g.nodes.mapIdx fun id n => { n with attributes := v.written id n.attributes }
    diagnostics := v.reports ++ g.diagnostics }

/-- The error as it is met in the graph that differs. -/
def Halt.overlay (v : Overlay) (halt : Halt) : Halt :=
  ⟨halt.error, halt.graph.overlay v⟩

namespace Graph

/-- The nodes that are still to come do not differ. -/
def Spares (g : Graph) (v : Overlay) : Prop :=
  ∀ id attributes, g.nodes.size ≤ id → v.written id attributes = attributes

variable {g g' : Graph} {v : Overlay}

theorem Spares.mono (h : g.Spares v) (hle : g.nodes.size ≤ g'.nodes.size) : g'.Spares v :=
  fun id attributes hid => h id attributes (Nat.le_trans hle hid)

@[simp] theorem overlay_nodes_size (g : Graph) (v : Overlay) :
    (g.overlay v).nodes.size = g.nodes.size := by
  simp [overlay]

theorem overlay_reports (g : Graph) (reports : List SchemaError) :
    g.overlay { reports } = { g with diagnostics := reports ++ g.diagnostics } := by
  have hnodes : (g.overlay { reports }).nodes = g.nodes := by
    apply Array.ext
    · simp
    · intro i hi hi'
      simp [overlay]
  exact congrArg (fun nodes => { g with nodes := nodes, diagnostics := reports ++ g.diagnostics }) hnodes

theorem nodeAt_overlay (g : Graph) (v : Overlay) (id : NodeId) :
    ∃ attributes, (g.overlay v).nodeAt id = { g.nodeAt id with attributes } := by
  by_cases hid : id < g.nodes.size
  · refine ⟨v.written id (g.nodeAt id).attributes, ?_⟩
    simp [nodeAt, overlay, Array.getD, hid]
  · refine ⟨(g.nodeAt id).attributes, ?_⟩
    simp [nodeAt, overlay, Array.getD, hid]

theorem nodeAt_overlay_scope (g : Graph) (v : Overlay) (id : NodeId) :
    ((g.overlay v).nodeAt id).scope = (g.nodeAt id).scope := by
  obtain ⟨attributes, hnode⟩ := nodeAt_overlay g v id
  rw [hnode]

theorem nodeAt_overlay_parent (g : Graph) (v : Overlay) (id : NodeId) :
    ((g.overlay v).nodeAt id).parent = (g.nodeAt id).parent := by
  obtain ⟨attributes, hnode⟩ := nodeAt_overlay g v id
  rw [hnode]

theorem nodeAt_overlay_payload (g : Graph) (v : Overlay) (id : NodeId) :
    ((g.overlay v).nodeAt id).payload = (g.nodeAt id).payload := by
  obtain ⟨attributes, hnode⟩ := nodeAt_overlay g v id
  rw [hnode]

theorem location_overlay (g : Graph) (v : Overlay) (id : NodeId) :
    (g.overlay v).location id = g.location id := by
  obtain ⟨attributes, hnode⟩ := nodeAt_overlay g v id
  simp only [location, hnode]
  rfl

/-! ## Changes of the graph -/

theorem modifyNode_overlay (g : Graph) (v : Overlay) (id : NodeId) {f : Node → Node}
    (hf : ∀ n attributes, f { n with attributes } = { f n with attributes }) :
    (g.overlay v).modifyNode id f = (g.modifyNode id f).overlay v := by
  have hkeeps : ∀ n, (f n).attributes = n.attributes := by
    intro n
    have hsame : f n = { f n with attributes := n.attributes } := hf n n.attributes
    rw [hsame]
  have hnodes : ((g.overlay v).modifyNode id f).nodes = ((g.modifyNode id f).overlay v).nodes := by
    apply Array.ext
    · simp [overlay, modifyNode]
    · intro i hi hi'
      simp only [overlay, modifyNode, Array.getElem_modify, Array.getElem_mapIdx]
      split
      · rw [hf, hkeeps]
      · rfl
  exact congrArg (fun nodes => { (g.overlay v) with nodes := nodes }) hnodes

theorem addNode_overlay (h : g.Spares v) (node : Node) :
    (g.overlay v).addNode node = ((g.addNode node).1.overlay v, g.nodes.size) := by
  have hpush : (g.addNode node).1.overlay v = ((g.overlay v).addNode node).1 := by
    simp only [addNode, overlay, Array.mapIdx_push, h _ _ (Nat.le_refl _)]
  rw [hpush]
  simp only [addNode, overlay_nodes_size]

theorem register_overlay (g : Graph) (v : Overlay) (uri : String) :
    (g.overlay v).register uri = ((g.register uri).1.overlay v, (g.register uri).2) := by
  have hid : (g.overlay v).namespaceId? uri = g.namespaceId? uri := rfl
  unfold register
  rw [hid]
  cases g.namespaceId? uri <;> rfl

theorem declare_overlay (g : Graph) (v : Overlay) (d : Declaration) (target : ScopeId) :
    (g.overlay v).declare d target =
      ((g.declare d target).mapError (Halt.overlay v)).map fun g => g.overlay v := by
  have hscope : (g.overlay v).scopeAt target = g.scopeAt target := rfl
  have hredefined : (g.overlay v).redefined = g.redefined := rfl
  have hpolicy : (g.overlay v).policy = g.policy := rfl
  unfold declare
  simp only [hscope, hredefined, hpolicy]
  rw [apply_ite (Except.mapError (Halt.overlay v)), apply_ite (Except.map fun g : Graph => g.overlay v)]
  congr 1
  cases (g.scopeAt target).insert d (g.policy.rule d.space (g.scopeAt target).parent.isNone) with
  | error refusal =>
    have hlocation : ((g.overlay v).modifyScope target fun _ => refusal.scope).location d.node =
        (g.modifyScope target fun _ => refusal.scope).location d.node :=
      location_overlay (g.modifyScope target fun _ => refusal.scope) v d.node
    simp only [hlocation]
    rfl
  | ok scope =>
    have hnamed := modifyNode_overlay (g.modifyScope target fun _ => scope) v d.node
      (f := fun node => { node with name := d.name }) fun _ _ => rfl
    exact congrArg Except.ok hnamed

theorem redefine_overlay (g : Graph) (v : Overlay) (space : SymbolSpace) (name : QName)
    (node : NodeId) (target : ScopeId) :
    (g.overlay v).redefine space name node target = (g.redefine space name node target).overlay v := by
  have hnamed := modifyNode_overlay
    (g.modifyScope target fun scope => scope.replace ⟨some name, space, node, .once⟩) v node
    (f := fun n => { n with name := some name }) fun _ _ => rfl
  exact congrArg (fun g => { g with redefined := (space, name) :: g.redefined }) hnamed

end Graph

/-! ## Bindings that mean the same -/

namespace Bindings

/-- The frames bind the same prefixes to the same URIs, one by one. -/
def Agree (b b' : Bindings) : Prop :=
  List.Forall₂ (fun frame frame' => ∀ pfx, frame.lookup pfx = frame'.lookup pfx)
    (b.top :: b.below) (b'.top :: b'.below)

variable {b b' : Bindings}

theorem Agree.refl (b : Bindings) : b.Agree b :=
  List.forall₂_same.mpr fun _ _ _ => rfl

theorem Agree.lookup (h : b.Agree b') (pfx : String) : b.lookup pfx = b'.lookup pfx := by
  have hflatten : ∀ {frames frames' : List BindingFrame},
      List.Forall₂ (fun frame frame' => ∀ pfx, frame.lookup pfx = frame'.lookup pfx) frames frames' →
      frames.flatten.lookup pfx = frames'.flatten.lookup pfx := by
    intro frames frames' hframes
    induction hframes with
    | nil => rfl
    | cons hframe _ ih => rw [List.flatten_cons, List.flatten_cons, List.lookup_append,
        List.lookup_append, hframe pfx, ih]
  exact hflatten h

theorem Agree.resolve (h : b.Agree b') (raw : String) : b.resolve raw = b'.resolve raw := by
  simp only [Bindings.resolve, defaultUri, h.lookup]

theorem Agree.pop (h : b.Agree b') : b.pop.Agree b'.pop := by
  obtain ⟨top, below⟩ := b
  obtain ⟨top', below'⟩ := b'
  cases h with
  | cons htop hbelow =>
    cases hbelow with
    | nil => exact .cons htop .nil
    | cons hframe hframes => exact .cons hframe hframes

theorem Agree.bindAll (h : b.Agree b') (attributes : List (String × String)) :
    (Reading.bindAll b attributes).Agree (Reading.bindAll b' attributes) := by
  rw [Reading.bindAll_eq, Reading.bindAll_eq]
  exact .cons (fun _ => rfl) h

theorem Agree.bind (h : b.Agree b') (pfx uri : String) : (b.bind pfx uri).Agree (b'.bind pfx uri) := by
  cases h with
  | cons htop hbelow =>
    refine .cons (fun other => ?_) hbelow
    simp only [Bindings.bind, List.lookup_cons, htop]

theorem Agree.adopt (h : b.Agree b') (declared : Option String) (uri : String) :
    (Reading.adopt b declared uri).Agree (Reading.adopt b' declared uri) := by
  have hdefault : b.defaultUri = b'.defaultUri := by simp only [defaultUri, h.lookup]
  unfold Reading.adopt
  rw [hdefault]
  split
  · exact h.bind "" uri
  · exact h

end Bindings

/-- A plan depends on the bindings by what names mean. -/
theorem Site.plan_congr (s : Site) {b : Bindings} (h : ∀ raw, s.bindings.resolve raw = b.resolve raw) :
    ({ s with bindings := b } : Site).plan = s.plan := by
  generalize hs' : ({ s with bindings := b } : Site) = s'
  have hqname : s'.qname = s.qname := by
    funext raw
    rw [← hs']
    exact congrArg (Except.mapError _) (h raw).symm
  -- nothing else that a plan is made of looks at the bindings
  have hfields : s'.tag = s.tag ∧ s'.parentTag = s.parentTag ∧ s'.uri = s.uri ∧
      s'.elementQualified = s.elementQualified ∧ s'.attributeQualified = s.attributeQualified ∧
      s'.occurs = s.occurs ∧ s'.place = s.place ∧ s'.attribute? = s.attribute? := by
    rw [← hs']
    exact ⟨rfl, rfl, rfl, rfl, rfl, rfl, rfl, rfl⟩
  obtain ⟨htag, hparentTag, huri, helement, hattr, hoccurs, hplace, hattribute⟩ := hfields
  have hqname? : s'.qname? = s.qname? := by
    funext key
    simp only [Site.qname?, hattribute, hqname]
  have hplanOf : s'.planOf = s.planOf := by
    funext plan
    simp only [Site.planOf, htag]
  have hrequired : s'.required = s.required := by
    funext key
    simp only [Site.required, hattribute, hplace]
  have hglobal : s'.isGlobal = s.isGlobal := by simp only [Site.isGlobal, hparentTag]
  have hglobalName : s'.globalName = s.globalName := by simp only [Site.globalName, hrequired, huri]
  have hvalue : s'.hasValue = s.hasValue := by
    funext key value
    simp only [Site.hasValue, hattribute]
  have hdeclared : s'.declaredName = s.declaredName := by
    funext refName qualifiedByDefault
    simp only [Site.declaredName, hrequired, hglobal, hattribute, huri]
  have htotal : s'.totalOccurs = s.totalOccurs := by
    simp only [Site.totalOccurs, Site.ownOccurs, hattribute, hplace, hoccurs]
  simp only [Site.plan, Site.element, Site.attr, Site.typeDefinition, Site.derivation,
    Site.enumeration, Site.list, Site.union, Site.particle, Site.group, Site.documentRef, hqname,
    hattribute, hqname?, hplanOf, hdeclared, hglobalName, hglobal, htotal, hrequired, hvalue, htag,
    hparentTag, huri, helement, hattr, hoccurs, hplace]

namespace Reading

/-! ## What a tag does to the graph -/

variable {request : Request} {g g' : Graph} {v : Overlay} {r r' : Reading} {b : Bindings}

theorem markMixed_attributes (n : Node) (attributes : List (String × String)) :
    markMixed { n with attributes } = { markMixed n with attributes } := by
  obtain ⟨_, payload, _, _, _, _, _, _, _, _, _, _⟩ := n
  cases payload <;> rfl

theorem addEnumeration_attributes (value : String) (n : Node) (attributes : List (String × String)) :
    addEnumeration value { n with attributes } = { addEnumeration value n with attributes } := by
  obtain ⟨_, payload, _, _, _, _, _, _, _, _, _, _⟩ := n
  cases payload <;> rfl

theorem addText_attributes (content : String) (n : Node) (attributes : List (String × String)) :
    addText content { n with attributes } = { addText content n with attributes } := by
  obtain ⟨_, payload, _, _, _, _, _, _, _, _, _, _⟩ := n
  cases payload <;> rfl

theorem mark_overlay (g : Graph) (v : Overlay) (id : NodeId) (e : Effect) :
    (g.overlay v).mark id e = (g.mark id e).overlay v := by
  unfold Graph.mark
  split
  · exact Graph.modifyNode_overlay g v id markMixed_attributes
  · rfl

theorem contribute_overlay (g : Graph) (v : Overlay) (id : NodeId) (e : Effect) :
    (g.overlay v).contribute id e = (g.contribute id e).overlay v := by
  unfold Graph.contribute
  cases e.contributes with
  | some value => exact Graph.modifyNode_overlay g v id (addEnumeration_attributes value)
  | none => rfl

theorem bear_overlay (g : Graph) (v : Overlay) (id : NodeId) (e : Effect) :
    (g.overlay v).bear id e = (g.bear id e).overlay v := by
  unfold Graph.bear
  cases e.bears with
  | some name =>
    exact Graph.modifyNode_overlay g v id (f := fun n => { n with name := some name }) fun _ _ => rfl
  | none => rfl

theorem register_overlay (g : Graph) (v : Overlay) (id : NodeId) (parentTag : Option Tag)
    (reg : Registration) :
    register (g.overlay v) id parentTag reg =
      ((register g id parentTag reg).mapError (Halt.overlay v)).map fun g => g.overlay v := by
  unfold register
  simp only [Graph.nodeAt_overlay_scope, Graph.declare_overlay, Graph.redefine_overlay]
  cases reg.name with
  | none => rfl
  | some name =>
    by_cases hredefines : parentTag = some .redefineDoc
    · simp only [if_pos hredefines]
      rfl
    · simp only [if_neg hredefines]

theorem openOwn_overlay (g : Graph) (v : Overlay) (id : NodeId) (scope : ScopeId) (opensScope : Bool) :
    openOwn (g.overlay v) id scope opensScope =
      ((openOwn g id scope opensScope).1.overlay v, (openOwn g id scope opensScope).2) := by
  cases opensScope with
  | false => rfl
  | true =>
    have hown := Graph.modifyNode_overlay (g.addScope (some scope) (g.scopeAt scope).ns).1 v id
      (f := fun node => { node with ownScope := some g.scopes.size }) fun _ _ => rfl
    exact congrArg (fun g' => (g', g.scopes.size)) hown

theorem perform_overlay (g : Graph) (v : Overlay) (id : NodeId) (scope : ScopeId) (f : Frame)
    (e : Effect) :
    perform (g.overlay v) id scope f e =
      ((perform g id scope f e).mapError (Halt.overlay v)).map
        fun result => (result.1.overlay v, result.2) := by
  rw [perform_eq, perform_eq, mark_overlay, contribute_overlay, bear_overlay]
  cases e.declares with
  | none => exact congrArg Except.ok (openOwn_overlay _ v id scope e.opensScope)
  | some reg =>
    simp only [register_overlay]
    cases register (((g.mark f.node e).contribute f.node e).bear id e) id (some f.tag) reg with
    | error fault => rfl
    | ok g₄ => exact congrArg Except.ok (openOwn_overlay g₄ v id scope e.opensScope)

/-! ## Two documents side by side -/

/-- The same point of a document in the graph that differs, with bindings that mean the same. -/
def under (r : Reading) (v : Overlay) (b : Bindings) : Reading :=
  { r with graph := r.graph.overlay v, bindings := b }

/-- Reading has come to the same end in both graphs, or to the same point. -/
inductive Matches (v : Overlay) : Except Halt Reading → Except Halt Reading → Prop
  | ok {r : Reading} {b : Bindings} (hagree : r.bindings.Agree b) :
    Matches v (.ok r) (.ok (r.under v b))
  | error (e : SchemaError) (g : Graph) : Matches v (.error ⟨e, g⟩) (.error ⟨e, g.overlay v⟩)

theorem addTagNode_under (hspares : r.graph.Spares v) (parent : Option Frame) (tag : Tag)
    (position : Position) (attributes : List (String × String)) :
    (r.under v b).addTagNode parent tag position attributes =
      ((r.addTagNode parent tag position attributes).1.under v b, r.graph.nodes.size) := by
  cases parent with
  | none =>
    simp only [addTagNode, under, Graph.addNode_overlay hspares]
    rfl
  | some f =>
    simp only [addTagNode, under, Graph.addNode_overlay hspares]
    have hchild := Graph.modifyNode_overlay
      (r.graph.addNode (r.tagNode f tag position attributes)).1 v f.node
      (f := fun node => { node with children := node.children ++ [r.graph.nodes.size] }) fun _ _ => rfl
    exact congrArg (fun g => (({ r with graph := g, bindings := b } : Reading), r.graph.nodes.size)) hchild

theorem siteOf_under (r : Reading) (v : Overlay) (b : Bindings) (id : NodeId) (f : Frame) (tag : Tag)
    (position : Position) (attributes : List (String × String)) :
    siteOf request (r.under v b) id f tag position attributes =
      { siteOf request r id f tag position attributes with bindings := b } := by
  simp only [siteOf, under, Graph.targetUri, Graph.nodeAt_overlay_scope]
  rfl

/-- A tag is opened by its plan, also if it is refused. -/
theorem openTag_eq {plan : Plan} {id : NodeId} {f : Frame} {tag : Tag} {position : Position}
    {attributes : List (String × String)}
    (hplan : (siteOf request r id f tag position attributes).plan = plan)
    (hg : r.graph.modifyNode id (fun node => { node with payload := plan.payload }) = g) :
    openTag request r id f tag position attributes =
      match plan.effect with
      | .error e => .error ⟨e, g⟩
      | .ok e =>
        match perform g id f.scope f e with
        | .error halt => .error halt
        | .ok (g, own) =>
          .ok { r with
            graph := g
            frames := ⟨id, tag, own, e.childOccurs⟩ :: r.frames
            requests := r.requests ++ e.request.toList } := by
  subst hplan hg
  rfl

theorem openTag_under (hagree : r.bindings.Agree b) (v : Overlay) (id : NodeId) (f : Frame)
    (tag : Tag) (position : Position) (attributes : List (String × String)) :
    Matches v (openTag request r id f tag position attributes)
      (openTag request (r.under v b) id f tag position attributes) := by
  set plan := (siteOf request r id f tag position attributes).plan with hplan
  set g := r.graph.modifyNode id fun node => { node with payload := plan.payload } with hg
  have hplan' : (siteOf request (r.under v b) id f tag position attributes).plan = plan := by
    rw [siteOf_under]
    exact Site.plan_congr _ hagree.resolve
  have hg' : (r.under v b).graph.modifyNode id (fun node => { node with payload := plan.payload }) =
      g.overlay v := Graph.modifyNode_overlay r.graph v id fun _ _ => rfl
  rw [openTag_eq hplan.symm hg.symm, openTag_eq hplan' hg']
  cases plan.effect with
  | error e => exact .error e g
  | ok e =>
    simp only [perform_overlay]
    cases perform g id f.scope f e with
    | error halt => exact .error halt.error halt.graph
    | ok result => exact .ok hagree

theorem openSchema_under (r : Reading) (v : Overlay) (b : Bindings) (id : NodeId)
    (attributes : List (String × String)) :
    openSchema request (r.under v b) id attributes =
      (openSchema request r id attributes).under v
        (adopt b (attributes.lookup "targetNamespace")
          (documentUri request (attributes.lookup "targetNamespace"))) := by
  have hdocument : ∀ (g : Graph) document, (g.overlay v).addDocument document =
      ((g.addDocument document).1.overlay v, (g.addDocument document).2) := fun _ _ => rfl
  simp only [openSchema, under, Graph.register_overlay, hdocument]
  congr 1
  exact Graph.modifyNode_overlay _ v id fun _ _ => rfl

theorem opened_under (hspares : r.graph.Spares v) (hagree : r.bindings.Agree b) (position : Position)
    (name : String) (attributes : List (String × String)) :
    Matches v (r.opened request position name attributes)
      ((r.under v b).opened request position name attributes) := by
  have hwithin : (r.within attributes).bindings.Agree (bindAll b attributes) :=
    hagree.bindAll attributes
  by_cases hskipped : 0 < r.skipped
  · have hskipped' : 0 < (r.under v b).skipped := hskipped
    rw [opened_skipped request position hskipped, opened_skipped request position hskipped']
    exact .ok hwithin
  have hzero : r.skipped = 0 := by omega
  have hzero' : (r.under v b).skipped = 0 := hzero
  have hresolve : ((r.under v b).within attributes).bindings.resolve name =
      (r.within attributes).bindings.resolve name := (hwithin.resolve name).symm
  cases hname : (r.within attributes).bindings.resolve name with
  | error cause =>
    rw [opened_unbound request position hzero hname,
      opened_unbound request position hzero' (hresolve.trans hname)]
    exact .error _ r.graph
  | ok q =>
    have hframes : (r.under v b).frames = r.frames := rfl
    have hentered : (r.under v b).within attributes =
        (r.within attributes).under v (bindAll b attributes) := rfl
    have hspares' : (r.within attributes).graph.Spares v := hspares
    rw [opened_named request position hzero hname,
      opened_named request position hzero' (hresolve.trans hname), hframes]
    cases admission (r.frames.head?.map Frame.tag) (Tag.ofQName? q) with
    | refuse => exact .error _ r.graph
    | ignore => exact .ok hwithin
    | report parent =>
      simp only [under, Graph.overlay, List.append_assoc]
      exact .ok hwithin
    | enter tag =>
      cases r.frames.head? with
      | none =>
        simp only [hentered, addTagNode_under hspares', openSchema_under]
        exact .ok (hwithin.adopt _ _)
      | some f =>
        have hadded : ((r.within attributes).addTagNode (some f) tag position
            (plainAttributes attributes)).1.bindings.Agree (bindAll b attributes) := hwithin
        simp only [hentered, addTagNode_under hspares']
        exact openTag_under hadded v _ f tag position _

theorem closeDocumentation_overlay (g : Graph) (v : Overlay) (id : NodeId) :
    closeDocumentation (g.overlay v) id = (closeDocumentation g id).overlay v := by
  unfold closeDocumentation
  simp only [Graph.nodeAt_overlay_payload, Graph.nodeAt_overlay_parent]
  cases (g.nodeAt id).payload with
  | documentation raw =>
    by_cases hblank : documentationText raw = ""
    · simp only [if_pos hblank]
    · simp only [if_neg hblank]
      cases (g.nodeAt id).parent.bind fun note => (g.nodeAt note).parent with
      | none => rfl
      | some annotated => exact Graph.modifyNode_overlay g v annotated fun _ _ => rfl
  | _ => rfl

section Heard

variable {f : Frame} {frames : List Frame} {content : String}

theorem closed_skipped (hskipped : 0 < r.skipped) :
    r.closed = { r with skipped := r.skipped - 1, bindings := r.bindings.pop } :=
  if_pos hskipped

theorem closed_outermost (hskipped : ¬ 0 < r.skipped) (hframes : r.frames = []) : r.closed = r := by
  simp only [closed, if_neg hskipped, hframes]

theorem closed_read (hskipped : ¬ 0 < r.skipped) (hframes : r.frames = f :: frames) :
    r.closed = { r with
      graph := closeDocumentation r.graph f.node, frames, bindings := r.bindings.pop } := by
  simp only [closed, if_neg hskipped, hframes]

theorem text_ignored (hignored : 0 < r.skipped ∨ Text.isBlank content) : r.text content = r :=
  if_pos hignored

theorem text_outermost (hframes : r.frames = []) : r.text content = r := by
  simp only [text, hframes, ite_self]

theorem text_heard (hheard : ¬ (0 < r.skipped ∨ Text.isBlank content))
    (hframes : r.frames = f :: frames) :
    r.text content = { r with graph := r.graph.modifyNode f.node (addText content) } := by
  simp only [text, if_neg hheard, hframes]

end Heard

theorem closed_under (hagree : r.bindings.Agree b) (v : Overlay) :
    Matches v (.ok r.closed) (.ok (r.under v b).closed) := by
  have hframes' : (r.under v b).frames = r.frames := rfl
  by_cases hskipped : 0 < r.skipped
  · have hskipped' : 0 < (r.under v b).skipped := hskipped
    rw [closed_skipped hskipped, closed_skipped hskipped']
    exact .ok hagree.pop
  · have hread' : ¬ 0 < (r.under v b).skipped := hskipped
    cases hframes : r.frames with
    | nil =>
      rw [closed_outermost hskipped hframes, closed_outermost hread' (hframes'.trans hframes)]
      exact .ok hagree
    | cons f frames =>
      rw [closed_read hskipped hframes, closed_read hread' (hframes'.trans hframes)]
      simp only [under, closeDocumentation_overlay]
      exact .ok hagree.pop

theorem text_under (hagree : r.bindings.Agree b) (v : Overlay) (content : String) :
    Matches v (.ok (r.text content)) (.ok ((r.under v b).text content)) := by
  have hframes' : (r.under v b).frames = r.frames := rfl
  by_cases hignored : 0 < r.skipped ∨ Text.isBlank content
  · have hignored' : 0 < (r.under v b).skipped ∨ Text.isBlank content := hignored
    rw [text_ignored hignored, text_ignored hignored']
    exact .ok hagree
  · cases hframes : r.frames with
    | nil =>
      rw [text_outermost hframes, text_outermost (hframes'.trans hframes)]
      exact .ok hagree
    | cons f frames =>
      have hheard' : ¬ (0 < (r.under v b).skipped ∨ Text.isBlank content) := hignored
      rw [text_heard hignored hframes, text_heard hheard' (hframes'.trans hframes)]
      simp only [under, Graph.modifyNode_overlay _ _ _ (addText_attributes content)]
      exact .ok hagree

theorem step_under (hspares : r.graph.Spares v) (hagree : r.bindings.Agree b)
    (item : Position × Markup.Event) :
    Matches v (step request r item) (step request (r.under v b) item) := by
  obtain ⟨position, event⟩ := item
  cases event with
  | opened name attributes =>
    rw [step_opened, step_opened]
    exact opened_under hspares hagree position name attributes
  | closed => exact closed_under hagree v
  | text content => exact text_under hagree v content

theorem run_under (hspares : r.graph.Spares v) (hagree : r.bindings.Agree b)
    (items : List (Position × Markup.Event)) :
    Matches v (items.foldlM (step request) r) (items.foldlM (step request) (r.under v b)) := by
  induction items generalizing r b with
  | nil => exact .ok hagree
  | cons item items ih =>
    rw [List.foldlM_cons, List.foldlM_cons]
    have hstep : Matches v (step request r item) (step request (r.under v b) item) :=
      step_under hspares hagree item
    have hretains : ∀ r', step request r item = .ok r' → r'.graph.Spares v :=
      fun r' hok => hspares.mono (step_retains hok).size
    generalize step request r item = next, step request (r.under v b) item = next' at hstep hretains ⊢
    cases hstep with
    | ok hagree => exact ih (hretains _ rfl) hagree
    | error e g => exact .error e g

/-- Reads the rest of a document. -/
def readOn (request : Request) (r : Reading) (items : List (Position × Markup.Event))
    (ending : Markup.Ending Position) : Except Halt (Graph × Parsed) :=
  items.foldlM (step request) r >>= fun r => r.finish request ending

/-- What reading comes to in the graph that differs. -/
def overlaid (v : Overlay) : Except Halt (Graph × Parsed) → Except Halt (Graph × Parsed)
  | .ok (g, parsed) => .ok (g.overlay v, parsed)
  | .error halt => .error (halt.overlay v)

theorem finish_under (r : Reading) (v : Overlay) (b : Bindings) (ending : Markup.Ending Position) :
    (r.under v b).finish request ending = overlaid v (r.finish request ending) := by
  cases ending with
  | broken position fault => rfl
  | complete stop =>
    cases hopen : r.frames.isEmpty with
    | false => simp [finish, under, hopen, overlaid, Halt.overlay]
    | true =>
      simp only [finish, under, hopen]
      cases r.document <;> rfl

theorem readOn_under (hspares : r.graph.Spares v) (hagree : r.bindings.Agree b)
    (items : List (Position × Markup.Event)) (ending : Markup.Ending Position) :
    readOn request (r.under v b) items ending = overlaid v (readOn request r items ending) := by
  have hrun : Matches v (items.foldlM (step request) r) (items.foldlM (step request) (r.under v b)) :=
    run_under hspares hagree items
  unfold readOn
  generalize items.foldlM (step request) r = last, items.foldlM (step request) (r.under v b) = last'
    at hrun ⊢
  cases hrun with
  | ok => exact finish_under _ v _ ending
  | error => rfl

theorem readOn_cons (request : Request) (r : Reading) (item : Position × Markup.Event)
    (items : List (Position × Markup.Event)) (ending : Markup.Ending Position) :
    readOn request r (item :: items) ending =
      step request r item >>= fun r => readOn request r items ending := by
  unfold readOn
  rw [List.foldlM_cons]
  cases step request r item <;> rfl

theorem readOn_append {items : List (Position × Markup.Event)}
    (hrun : items.foldlM (step request) r = .ok r') (rest : List (Position × Markup.Event))
    (ending : Markup.Ending Position) :
    readOn request r (items ++ rest) ending = readOn request r' rest ending := by
  unfold readOn
  rw [List.foldlM_append, hrun]
  rfl

/-- A document is read from its start. -/
theorem readStream_eq (request : Request) (g : Graph) (items : List (Position × Markup.Event))
    (ending : Markup.Ending Position) :
    readStream request g ⟨items, ending⟩ = readOn request { graph := g } items ending := rfl

end Reading

end XsdTypes
