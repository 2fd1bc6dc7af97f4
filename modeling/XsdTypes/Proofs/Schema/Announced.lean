import XsdTypes.Proofs.Schema.Reached

/-!
# What has a name can be found

A tag that declares a name leaves its node in the scope in which it stands, or another node with this
name, if the name is redefined later. Only an attribute that must not be used has a name and no
declaration. So all nodes of documents that have a name are declared under it (`Announced`).
-/

namespace XsdTypes

open Sequencing

/-- Whether it is an attribute that must not be used. -/
def Payload.isProhibited : Payload → Bool
  | .attr _ prohibited => prohibited
  | _ => false

theorem Payload.isProhibited_written (payload : Payload) :
    payload.written.isProhibited = payload.isProhibited := by
  cases payload <;> rfl

namespace Graph

/-- If the node has a name, the name is declared in the scope in which the node stands, as that of
something of its kind. -/
def Announces (g : Graph) (n : NodeId) : Prop :=
  ∀ q, (g.nodeAt n).name = some q → (g.nodeAt n).payload.isProhibited = false →
    ∃ space, SymbolSpace.fits space (g.nodeAt n).tag = true ∧
      ∃ d ∈ (g.scopeAt (g.nodeAt n).scope).entries, d.symbol? = some (space, q)

/-- The nodes from `first` on can be found by their names. -/
def Announced (first : Nat) (g : Graph) : Prop :=
  ∀ n, first ≤ n → n < g.nodes.size → g.Announces n

variable {g g' : Graph} {first : Nat} {n : NodeId}

/-- A name that is declared stays declared. -/
theorem Announces.mono (h : g.Announces n) (hext : g.Extends g') (hn : n < g.nodes.size) :
    g'.Announces n := by
  have hcore := hext.core n hn
  have hprohibited : (g'.nodeAt n).payload.isProhibited = (g.nodeAt n).payload.isProhibited := by
    rw [← Payload.isProhibited_written, written_eq_of_core hcore, Payload.isProhibited_written]
  intro q hname hused
  rw [name_eq_of_core hcore] at hname
  rw [hprohibited] at hused
  obtain ⟨space, hfits, d, hd, hsymbol⟩ := h q hname hused
  obtain ⟨d', hd', hsame⟩ := hext.symbols _ d hd (by rw [hsymbol]; rfl)
  rw [tag_eq_of_core hcore, scope_eq_of_core hcore]
  exact ⟨space, hfits, d', hd', hsame.trans hsymbol⟩

theorem Announced.extend (h : g.Announced first) (hext : g.Extends g')
    (hsize : g'.nodes.size = g.nodes.size) : g'.Announced first := by
  intro n hfirst hn
  rw [hsize] at hn
  exact (h n hfirst hn).mono hext hn

theorem Announced.newest (h : g.Announced first) {node : Node} (hnew : g.Newest g' node)
    (hself : g'.Announces g.nodes.size) : g'.Announced first := by
  intro n hfirst hn
  rw [hnew.size] at hn
  rcases Nat.lt_or_eq_of_le (Nat.le_of_lt_succ hn) with hold | rfl
  · exact (h n hfirst hold).mono hnew.ext hold
  · exact hself

/-! ## Declaring -/

section Declaring

variable {id : NodeId} {target : ScopeId} {q : QName}

theorem name_modifyNode (g : Graph) (id : NodeId) {f : Node → Node} (n : NodeId)
    (hf : ∀ node, (f node).name = node.name) :
    ((g.modifyNode id f).nodeAt n).name = (g.nodeAt n).name := by
  rw [nodeAt_modifyNode]
  split
  · exact hf _
  · rfl

theorem mem_replace {s : Scope} (h : s.Indexed) (d : Declaration) : d ∈ (s.replace d).entries := by
  rcases h.replace_cases d with ⟨place, heq, hplace, _⟩ | ⟨heq, _⟩ <;> rw [heq]
  · exact List.mem_set hplace d
  · exact List.mem_append_right _ (List.mem_singleton.mpr rfl)

/-- A node gets a name by being declared. -/
theorem declare_announces {d : Declaration} (hindexed : (g.scopeAt target).Indexed)
    (htarget : target < g.scopes.size) (hid : d.node < g.nodes.size)
    (hunnamed : (g.nodeAt d.node).name = none) (hok : g.declare d target = .ok g')
    (hname : (g'.nodeAt d.node).name = some q) :
    d.name = some q ∧ d ∈ (g'.scopeAt target).entries := by
  rcases declare_eq_ok hok with ⟨rfl, _⟩ | ⟨scope, hins, rfl⟩
  · rw [hunnamed] at hname
    cases hname
  obtain ⟨rfl, _⟩ := hindexed.insert_eq_ok hins
  rw [nodeAt_modifyNode_self _ _ _ (by simpa using hid)] at hname
  refine ⟨hname, ?_⟩
  rw [scopeAt_modifyNode, scopeAt_modifyScope_self _ _ _ htarget]
  exact List.mem_append_right _ (List.mem_singleton.mpr rfl)

theorem register_announces {parentTag : Option Tag} {reg : Registration}
    (hindexed : ∀ s, (g.scopeAt s).Indexed) (htarget : (g.nodeAt id).scope < g.scopes.size)
    (hid : id < g.nodes.size) (hunnamed : (g.nodeAt id).name = none)
    (hok : Reading.register g id parentTag reg = .ok g')
    (hname : (g'.nodeAt id).name = some q) :
    ∃ d ∈ (g'.scopeAt (g.nodeAt id).scope).entries, d.symbol? = some (reg.space, q) := by
  have hdeclare : ∀ name, g.declare ⟨name, reg.space, id, reg.occurs⟩ (g.nodeAt id).scope = .ok g' →
      ∃ d ∈ (g'.scopeAt (g.nodeAt id).scope).entries, d.symbol? = some (reg.space, q) := by
    intro name hok
    obtain ⟨hq, hmem⟩ := declare_announces (hindexed _) htarget hid hunnamed hok hname
    refine ⟨_, hmem, ?_⟩
    rw [Declaration.symbol?, hq]
    rfl
  unfold Reading.register at hok
  simp only at hok
  split at hok
  · rename_i name _
    split at hok
    · cases hok
      have hself : ((g.redefine reg.space name id (g.nodeAt id).scope).nodeAt id).name = some name := by
        change ((Graph.modifyNode _ id _).nodeAt id).name = some name
        rw [nodeAt_modifyNode_self _ _ _ (by simpa using hid)]
      cases hself.symm.trans hname
      refine ⟨⟨some q, reg.space, id, .once⟩, ?_, rfl⟩
      change _ ∈ ((Graph.modifyScope g (g.nodeAt id).scope _).scopeAt (g.nodeAt id).scope).entries
      rw [scopeAt_modifyScope_self _ _ _ htarget]
      exact mem_replace (hindexed _) _
    · exact hdeclare _ hok
  · exact hdeclare _ hok

/-- A tag that declares something leaves no name without a declaration. -/
theorem perform_announces {g₁ : Graph} {scope own : ScopeId} {f : Frame} {e : Effect}
    {reg : Registration} (hok : Reading.perform g₁ id scope f e = .ok (g', own))
    (hreg : e.declares = some reg) (hbears : e.bears = none) (hname : (g'.nodeAt id).name = some q)
    (hindexed : ∀ s, (g₁.scopeAt s).Indexed) (hid : id < g₁.nodes.size) (hparent : id ≠ f.node)
    (hscope : (g₁.nodeAt id).scope < g₁.scopes.size) (hunnamed : (g₁.nodeAt id).name = none) :
    ∃ d ∈ (g'.scopeAt (g₁.nodeAt id).scope).entries, d.symbol? = some (reg.space, q) := by
  obtain ⟨g₂, _, hsome, hopen, hclosed⟩ := perform_eq_ok hok
  -- what the tag tells the node around it changes neither scopes nor its own node
  set base := ((g₁.mark f.node e).contribute f.node e).bear id e with hbase
  have hscopes : base.scopes = g₁.scopes := by simp [hbase]
  have hscopeAt : ∀ s, base.scopeAt s = g₁.scopeAt s := fun s => by rw [scopeAt, hscopes, scopeAt]
  have hnode : base.nodeAt id = g₁.nodeAt id := by
    rw [hbase, bear, hbears, nodeAt_contribute_ne _ _ _ hparent, nodeAt_mark_ne _ _ _ hparent]
  have hsize : base.nodes.size = g₁.nodes.size := by simp [hbase]
  have hfound : (g₂.nodeAt id).name = some q →
      ∃ d ∈ (g₂.scopeAt (g₁.nodeAt id).scope).entries, d.symbol? = some (reg.space, q) := by
    intro hname
    rw [← hnode]
    exact register_announces (fun s => hscopeAt s ▸ hindexed s) (by rw [hnode, hscopes]; exact hscope)
      (hsize ▸ hid) (by rw [hnode]; exact hunnamed) (hsome reg hreg) hname
  cases ho : e.opensScope with
  | false =>
    obtain ⟨_, rfl⟩ := hclosed ho
    exact hfound hname
  | true =>
    obtain ⟨_, rfl⟩ := hopen ho
    rw [name_modifyNode] at hname
    · obtain ⟨d, hd, hsymbol⟩ := hfound hname
      refine ⟨d, ?_, hsymbol⟩
      rw [scopeAt_modifyNode, scopeAt_addScope_of_lt _ _ _ (scope_lt_of_mem hd)]
      exact hd
    · exact fun _ => rfl

end Declaring

end Graph

namespace Reading

/-! ## Reading a document -/

variable {r r' : Reading} {request : Request} {f : Frame} {first : Nat}

/-- Only an attribute that must not be used has a name without a declaration. -/
theorem bears_cases {s : Site} {e : Effect} (heffect : s.plan.effect = .ok e) :
    (e.bears = none ∨ e.declares = none) ∧ (e.bears ≠ none → s.plan.payload.isProhibited = true) := by
  by_cases htag : s.tag = .attr
  · obtain ⟨_, _, _, _, prohibited, hpayload, rfl⟩ := Site.plan_attr htag heffect
    rw [hpayload]
    cases prohibited <;> simp [Payload.isProhibited]
  · have hbears := (Site.accepted heffect).bears htag
    exact ⟨Or.inl hbears, fun hne => absurd hbears hne⟩

/-- The node of a tag that opens can be found by its name. -/
theorem openTag_announces (hg : r.graph.Sound) (hstands : f.Stands r.graph) {tag : Tag}
    (hmay : f.tag.mayContain tag) {position : Position} {attributes : List (String × String)}
    (hok : openTag request (r.addTagNode (some f) tag position attributes).1
      (r.addTagNode (some f) tag position attributes).2 f tag position attributes = .ok r') :
    r'.graph.Announces r.graph.nodes.size := by
  have hadded := newest_addTagNode hg hstands hmay position attributes
  obtain ⟨e, own, g', heffect, hperform, rfl⟩ := openTag_eq_ok hok
  have hid : (r.addTagNode (some f) tag position attributes).2 = r.graph.nodes.size := rfl
  rw [hid] at heffect hperform
  have hopens := opens_of_perform hg hstands hmay rfl rfl heffect
    ((r.addTagNode (some f) tag position attributes).1.requests ++ e.request.toList) hperform
  have hnewest := hopens.newest
  obtain ⟨hbears, hprohibited⟩ := bears_cases heffect
  intro q hname hused
  rw [hnewest.payload_eq] at hused
  cases hdeclares : e.declares with
  | none =>
    have hborne := hopens.traced.bears hdeclares
    rw [hname] at hborne
    cases hused.symm.trans (hprohibited (hborne ▸ Option.some_ne_none q))
  | some reg =>
    have hunborne : e.bears = none := hbears.resolve_right (hdeclares ▸ Option.some_ne_none reg)
    have hself := nodeAt_addTagNode hstands tag position attributes
    have hfound := Graph.perform_announces hperform hdeclares hunborne hname
      hadded.sound.declared.indexed (by rw [Graph.modifyNode_nodes_size]; exact hadded.lt)
      (Nat.ne_of_gt hstands.lt)
    rw [Graph.nodeAt_modifyNode_self _ _ _ hadded.lt, hself] at hfound
    refine ⟨reg.space, ?_, ?_⟩
    · rw [hnewest.tag]
      exact hopens.accepted.fits reg hdeclares
    · rw [hnewest.scope]
      exact hfound (hstands.scope_lt hg) rfl

/-- The outermost tag has no name. -/
theorem openSchema_announces (request : Request) (position : Position)
    (attributes : List (String × String)) :
    (openSchema request (r.addTagNode none .schema position attributes).1
      (r.addTagNode none .schema position attributes).2 attributes).graph.Announces
        r.graph.nodes.size := by
  intro q hname
  set node : Node := { Node.ofTag .schema (r.graph.namespaceAt Graph.schemaNamespace).root position with
    attributes, document := r.document } with hnode
  set uri := documentUri request (attributes.lookup "targetNamespace") with huri
  have hunnamed : (((r.graph.addNode node).1.register uri).1.nodeAt r.graph.nodes.size).name = none := by
    rw [Graph.nodeAt, Graph.register_nodes, ← Graph.nodeAt, Graph.nodeAt_addNode_self]
    rfl
  unfold openSchema at hname
  simp only at hname
  rw [Graph.name_modifyNode] at hname
  · cases hunnamed.symm.trans hname
  · exact fun _ => rfl

theorem step_announced (h : r.Intact first) (hannounced : r.graph.Announced first)
    {event : Position × Markup.Event} (hok : step request r event = .ok r') :
    r'.graph.Announced first := by
  have hlistens : r.Listens r' → r'.graph.Announced first := by
    intro hlistens
    rcases hlistens.graph with heq | ⟨id, f, hf, heq⟩ <;> rw [heq]
    · exact hannounced
    · exact hannounced.extend (Graph.Extends.modifyNode _ _ hf.core) (by simp)
  obtain ⟨position, event⟩ := event
  cases event with
  | opened name attributes =>
    rw [step_opened] at hok
    rcases opened_cases request r position name attributes with
      ⟨skipped, diagnostics, heq⟩ | ⟨error, heq⟩ | heq | ⟨f, tag, hf, hmay, heq⟩
    · cases heq.symm.trans hok
      exact hannounced.extend (reported h.graph.sound diagnostics).2 rfl
    · cases heq.symm.trans hok
    · cases heq.symm.trans hok
      obtain ⟨node, _, hopens⟩ := openSchema_opens (r := r.within attributes) h.graph.sound
        h.graph.schemaNamespace_lt request position (plainAttributes attributes)
      exact hannounced.newest hopens.newest (openSchema_announces request position _)
    · obtain ⟨node, _, _, _, _, hopens⟩ := openTag_opens (r := r.within attributes) h.graph.sound
        (h.stands f hf) hmay (heq.symm.trans hok)
      exact hannounced.newest hopens.newest
        (openTag_announces (r := r.within attributes) h.graph.sound (h.stands f hf) hmay
          (heq.symm.trans hok))
  | closed =>
    cases hok
    exact hlistens r.closed_listens
  | text content =>
    cases hok
    exact hlistens (r.text_listens content)

theorem read_announced {g g' : Graph} (h : g.Intact first) (hannounced : g.Announced first)
    {text : String} {parsed : Parsed} (hok : Reading.read request g text = .ok (g', parsed)) :
    g'.Announced first := by
  unfold Reading.read readStream at hok
  obtain ⟨r, hr, hfinish⟩ := bind_eq_ok.mp hok
  obtain ⟨rfl, _, _⟩ := finish_eq_ok hfinish
  refine (foldlM_keeps (P := fun r => r.Intact first ∧ r.graph.Announced first)
    (fun r event _ r' hr hstep => ⟨?_, step_announced hr.1 hr.2 hstep⟩) ⟨Intact.start h, hannounced⟩ hr).2
  have hintact := hr.1.step request event
  rw [hstep] at hintact
  exact hintact

end Reading

namespace Loading

/-! ## Loading -/

variable {documents : String → Except FetchFault String} {l l' : Loading} {first : Nat}

theorem enqueueAll_announced (h : l.graph.Announced first) (requests : List Request) :
    (requests.foldl enqueue l).graph.Announced first := by
  refine List.foldlRecOn (motive := fun l => l.graph.Announced first) requests enqueue h
    fun l hl request _ => ?_
  rcases (enqueue_cases l request).2.2 with heq | ⟨uri, heq⟩ <;> rw [heq]
  · exact hl
  · exact hl.extend (Graph.Extends.register _ uri) (by rw [Graph.register_nodes])

theorem answers_announced (h : l.graph.Intact first) (hannounced : l.graph.Announced first)
    (hanswers : Relation.ReflTransGen (Answers documents) l l') :
    l'.graph.Intact first ∧ l'.graph.Announced first := by
  induction hanswers with
  | refl => exact ⟨h, hannounced⟩
  | @tail l₁ _ _ hlast ih =>
    obtain ⟨hintact, hannounced⟩ := ih
    obtain ⟨request, pending, _, hok⟩ := hlast
    have hreceive := Graph.Intact.receive (l := { l₁ with pending }) hintact request
      (documents request.url)
    rw [hok] at hreceive
    refine ⟨hreceive, ?_⟩
    rcases receive_eq_ok hok with ⟨_, _, _, rfl⟩ | ⟨_, _, _, _, hread, rfl⟩
    · exact hannounced
    · exact enqueueAll_announced (Reading.read_announced hintact hannounced hread) _

/-- To bind references changes what nodes are bound to, and nothing else. -/
theorem resolveAll_extends {g g' : Graph} {first : NodeId}
    (hok : Resolution.resolveAll g first = .ok g') :
    g.Extends g' ∧ g'.nodes.size = g.nodes.size := by
  refine foldlM_keeps (P := fun g' : Graph => g.Extends g' ∧ g'.nodes.size = g.nodes.size)
    (fun g₁ id _ g₂ hg₁ hstep => ?_) ⟨.refl g, rfl⟩ hok
  unfold Resolution.resolveNode at hstep
  split at hstep
  · cases hstep
    exact hg₁
  split at hstep
  · cases hstep
  · rename_i payload hbind
    cases hstep
    refine ⟨hg₁.1.trans (Graph.Extends.of_nodes (by simp) (fun n _ => ?_) rfl rfl rfl),
      (Graph.modifyNode_nodes_size ..).trans hg₁.2⟩
    rw [Graph.nodeAt_modifyNode]
    split
    · rename_i hself
      rw [hself.1]
      simp only [Node.core, (Resolution.bind_eq_ok_iff.mp hbind).written]
    · rfl

/-- After a load from the start, all that has a name can be found by it. -/
theorem load_announced {limit : Nat} {policy : RepeatPolicy} {url : String} {ns : Option String}
    {g : Graph} {entry : NamespaceId}
    (hok : load (m := Id) documents limit (Graph.initial policy) url ns = .ok (g, entry)) :
    g.Announced (Graph.initial policy).nodes.size := by
  obtain ⟨l, resolved, hrun, hresolve, rfl⟩ := load_eq_ok (documentId?_initial policy url) hok
  have hreaches := (run_eq_ok hrun).1
  rw [start_initial] at hreaches
  have hnone : (Graph.initial policy).Announced (Graph.initial policy).nodes.size :=
    fun n hfirst hn => absurd hn (Nat.not_lt.mpr hfirst)
  obtain ⟨_, hannounced⟩ := answers_announced (Graph.intact_initial policy) hnone hreaches
  obtain ⟨hext, hsize⟩ := resolveAll_extends hresolve
  have hresolved := hannounced.extend hext hsize
  exact hresolved.extend (extends_markLoaded resolved) rfl

end Loading

end XsdTypes
