import XsdTypes.Proofs.Schema.Edits
import XsdTypes.Proofs.Schema.Reached
import XsdTypes.Proofs.Schema.Retention

/-!
# What documents redefine

What stands in a `redefine` tag redefines its name, and nothing else in a document does. So the
redefinitions that reading and loading make can be read off the nodes that are new afterwards, in their
order, also if a document stops before its end (`Logged`). This needs little of the graph that
documents are read into: its nodes may be any.
-/

namespace XsdTypes

open Sequencing

/-- The symbol space of what a tag defines in a `redefine` tag. -/
def Tag.definedSpace? : Tag → Option SymbolSpace
  | .complexType | .simpleType => some .type
  | .group => some .group
  | .attrGroup => some .attrGroup
  | _ => none

/-- What stands in `redefine` has a name in the space of its tag, or declares nothing. -/
theorem Site.declares_in_redefine {s : Site} {e : Effect} (hparent : s.parentTag = some .redefineDoc)
    (hmay : Tag.redefineDoc.mayContain s.tag = true) (h : s.plan.effect = .ok e) :
    (s.tag.definedSpace? = none ∧ e.declares = none) ∨
      ∃ space name occurs, s.tag.definedSpace? = some space ∧
        e.declares = some ⟨some name, space, occurs⟩ := by
  have hglobal : s.isGlobal = true := by
    rw [Site.isGlobal, hparent]
    rfl
  have htype : s.tag = .complexType ∨ s.tag = .simpleType →
      ∃ name occurs, e.declares = some ⟨some name, .type, occurs⟩ := by
    intro htag
    obtain ⟨payload, hplan⟩ := Site.plan_type htag
    rw [hplan] at h
    obtain ⟨declares, rfl, hnamed, _⟩ := Site.typeDefinition_effect h
    obtain ⟨localName, rfl⟩ := hnamed hglobal
    exact ⟨_, _, rfl⟩
  have hgroup : ∀ {definition reference : SymbolSpace}, s.plan = s.group definition reference →
      ∃ name occurs, e.declares = some ⟨some name, definition, occurs⟩ := by
    intro definition reference hplan
    rw [hplan] at h
    rcases Site.group_effect h with ⟨_, _, localName, rfl⟩ | ⟨hlocal, _⟩
    · exact ⟨_, _, rfl⟩
    · rw [hglobal] at hlocal
      cases hlocal
  cases htag : s.tag with
  | note =>
    rw [Site.plan, htag] at h
    cases h
    exact Or.inl ⟨rfl, rfl⟩
  | complexType =>
    obtain ⟨name, occurs, hdeclares⟩ := htype (Or.inl htag)
    exact Or.inr ⟨.type, name, occurs, rfl, hdeclares⟩
  | simpleType =>
    obtain ⟨name, occurs, hdeclares⟩ := htype (Or.inr htag)
    exact Or.inr ⟨.type, name, occurs, rfl, hdeclares⟩
  | group =>
    obtain ⟨name, occurs, hdeclares⟩ := hgroup (Site.plan_group htag)
    exact Or.inr ⟨.group, name, occurs, rfl, hdeclares⟩
  | attrGroup =>
    obtain ⟨name, occurs, hdeclares⟩ := hgroup (Site.plan_attrGroup htag)
    exact Or.inr ⟨.attrGroup, name, occurs, rfl, hdeclares⟩
  | _ =>
    rw [htag] at hmay
    exact absurd hmay (by decide)

namespace Graph

variable {g g' g'' : Graph} {id : NodeId}

/-- The redefinition that a node makes: it stands in a `redefine` tag and has a name. -/
def redefinition? (g : Graph) (id : NodeId) : Option Redefinition :=
  match (g.nodeAt id).parent, (g.nodeAt id).name, (g.nodeAt id).tag.definedSpace? with
  | some parent, some name, some space =>
    if (g.nodeAt parent).tag = .redefineDoc then some ⟨(space, name), id, (g.nodeAt id).scope⟩
    else none
  | _, _, _ => none

/-- The redefinitions that the nodes from `first` on make, in order. -/
def redefinitions (g : Graph) (first : NodeId) : List Redefinition :=
  (List.range' first (g.nodes.size - first)).filterMap g.redefinition?

theorem redefinition?_congr (hcore : (g'.nodeAt id).core = (g.nodeAt id).core)
    (hparent : ∀ p, (g.nodeAt id).parent = some p → (g'.nodeAt p).tag = (g.nodeAt p).tag) :
    g'.redefinition? id = g.redefinition? id := by
  unfold redefinition?
  rw [parent_eq_of_core hcore, name_eq_of_core hcore, tag_eq_of_core hcore, scope_eq_of_core hcore]
  cases hp : (g.nodeAt id).parent with
  | none => rfl
  | some p =>
    have htag := hparent p hp
    cases (g.nodeAt id).name with
    | none => rfl
    | some name =>
      cases (g.nodeAt id).tag.definedSpace? with
      | none => rfl
      | some space => simp only [htag]

theorem redefinitions_of_size_le {first : NodeId} (h : g.nodes.size ≤ first) :
    g.redefinitions first = [] := by
  rw [redefinitions, Nat.sub_eq_zero_of_le h]
  rfl

theorem redefinitions_split {first mid : Nat} (hfirst : first ≤ mid) (hmid : mid ≤ g.nodes.size) :
    g.redefinitions first =
      (List.range' first (mid - first)).filterMap g.redefinition? ++ g.redefinitions mid := by
  have hrange : List.range' first (g.nodes.size - first) =
      List.range' first (mid - first) ++ List.range' mid (g.nodes.size - mid) := by
    have happend := List.range'_append_1 (s := first) (m := mid - first) (n := g.nodes.size - mid)
    rw [Nat.add_sub_cancel' hfirst] at happend
    rw [happend]
    congr 1
    omega
  rw [redefinitions, hrange, List.filterMap_append, redefinitions]

/-! ## Graphs with a log -/

/-- From `g` to `g'` there are edits whose redefinitions can be read off the new nodes; the old nodes
are what they were. -/
structure Logged (g g' : Graph) : Prop where
  size_le : g.nodes.size ≤ g'.nodes.size
  core : ∀ n, n < g.nodes.size → (g'.nodeAt n).core = (g.nodeAt n).core
  parent_lt : ∀ n p : Nat, g.nodes.size ≤ n → n < g'.nodes.size → (g'.nodeAt n).parent = some p →
    p < g'.nodes.size
  edits : Edits g (g'.redefinitions g.nodes.size) g'

namespace Logged

/-- No node is new. -/
theorem of_edits (hsize : g'.nodes.size = g.nodes.size)
    (hcore : ∀ n, n < g.nodes.size → (g'.nodeAt n).core = (g.nodeAt n).core) (h : Edits g [] g') :
    g.Logged g' where
  size_le := Nat.le_of_eq hsize.symm
  core := hcore
  parent_lt n _ hfirst hn := absurd hn (by omega)
  edits := by
    rw [redefinitions_of_size_le (Nat.le_of_eq hsize)]
    exact h

theorem refl (g : Graph) : g.Logged g :=
  of_edits rfl (fun _ _ => rfl) .refl

/-- One node is new. -/
theorem newest (hsize : g'.nodes.size = g.nodes.size + 1)
    (hcore : ∀ n, n < g.nodes.size → (g'.nodeAt n).core = (g.nodeAt n).core)
    (hparent : ∀ p : Nat, (g'.nodeAt g.nodes.size).parent = some p → p < g.nodes.size)
    (h : Edits g (g'.redefinition? g.nodes.size).toList g') : g.Logged g' where
  size_le := by omega
  core := hcore
  parent_lt n p hfirst hn hp := by
    obtain rfl : n = g.nodes.size := by omega
    have := hparent p hp
    omega
  edits := by
    have hlog : g'.redefinitions g.nodes.size = (g'.redefinition? g.nodes.size).toList := by
      rw [redefinitions, hsize, Nat.add_sub_cancel_left, List.range'_one, List.filterMap_cons,
        List.filterMap_nil]
      cases g'.redefinition? g.nodes.size <;> rfl
    rw [hlog]
    exact h

theorem trans (h : g.Logged g') (h' : g'.Logged g'') : g.Logged g'' where
  size_le := Nat.le_trans h.size_le h'.size_le
  core n hn := (h'.core n (Nat.lt_of_lt_of_le hn h.size_le)).trans (h.core n hn)
  parent_lt n p hfirst hn hp := by
    by_cases hold : n < g'.nodes.size
    · rw [parent_eq_of_core (h'.core n hold)] at hp
      exact Nat.lt_of_lt_of_le (h.parent_lt n p hfirst hold hp) h'.size_le
    · exact h'.parent_lt n p (Nat.le_of_not_lt hold) hn hp
  edits := by
    -- the nodes that were new before make the redefinitions they made before
    have hold : (List.range' g.nodes.size (g'.nodes.size - g.nodes.size)).filterMap
        g''.redefinition? = g'.redefinitions g.nodes.size := by
      refine List.filterMap_congr fun (n : Nat) hn => ?_
      obtain ⟨hfirst, hlt⟩ := List.mem_range'_1.mp hn
      have hsize := h.size_le
      have hn' : n < g'.nodes.size := by omega
      refine redefinition?_congr (h'.core n hn') fun p hp => ?_
      exact tag_eq_of_core (h'.core p (h.parent_lt n p hfirst hn' hp))
    rw [redefinitions_split h.size_le h'.size_le, hold]
    exact h.edits.trans h'.edits

theorem modifyNode (g : Graph) (id : NodeId) {f : Node → Node}
    (hf : (f (g.nodeAt id)).core = (g.nodeAt id).core) : g.Logged (g.modifyNode id f) := by
  refine of_edits (g.modifyNode_nodes_size id f) (fun n _ => ?_)
    (.single (.quiet rfl rfl rfl rfl fun _ => rfl))
  rw [nodeAt_modifyNode]
  split
  · rename_i hn
    rw [hn.1]
    exact hf
  · rfl

theorem register (g : Graph) (uri : String) : g.Logged (g.register uri).1 := by
  have hnodes := register_nodes g uri
  refine of_edits (by rw [hnodes]) (fun n _ => ?_) (.single (.register g uri))
  rw [nodeAt, hnodes, nodeAt]

end Logged

/-! ## Changes of one node -/

/-- Of the nodes only `id` changes, and neither its tag nor its place. -/
structure Touches (g g' : Graph) (id : NodeId) : Prop where
  size : g'.nodes.size = g.nodes.size
  core : ∀ n, n ≠ id → (g'.nodeAt n).core = (g.nodeAt n).core
  tag : (g'.nodeAt id).tag = (g.nodeAt id).tag
  parent : (g'.nodeAt id).parent = (g.nodeAt id).parent
  scope : (g'.nodeAt id).scope = (g.nodeAt id).scope

namespace Touches

theorem of_nodes (h : g'.nodes = g.nodes) : g.Touches g' id := by
  have hnode : ∀ n, g'.nodeAt n = g.nodeAt n := fun n => by rw [nodeAt, h, nodeAt]
  exact ⟨by rw [h], fun n _ => by rw [hnode], by rw [hnode], by rw [hnode], by rw [hnode]⟩

theorem trans (h : g.Touches g' id) (h' : g'.Touches g'' id) : g.Touches g'' id where
  size := h'.size.trans h.size
  core n hn := (h'.core n hn).trans (h.core n hn)
  tag := h'.tag.trans h.tag
  parent := h'.parent.trans h.parent
  scope := h'.scope.trans h.scope

/-- The node itself may change in all but its tag and its place. -/
theorem modifySelf (g : Graph) (id : NodeId) {f : Node → Node}
    (hf : ∀ n, (f n).tag = n.tag ∧ (f n).parent = n.parent ∧ (f n).scope = n.scope) :
    g.Touches (g.modifyNode id f) id := by
  have hself : ((g.modifyNode id f).nodeAt id).tag = (g.nodeAt id).tag ∧
      ((g.modifyNode id f).nodeAt id).parent = (g.nodeAt id).parent ∧
      ((g.modifyNode id f).nodeAt id).scope = (g.nodeAt id).scope := by
    rw [nodeAt_modifyNode]
    split
    · exact hf _
    · exact ⟨rfl, rfl, rfl⟩
  refine ⟨g.modifyNode_nodes_size id f, fun n hn => ?_, hself.1, hself.2.1, hself.2.2⟩
  rw [nodeAt_modifyNode_ne _ _ _ hn]

/-- Any node may change in what is no part of its core. -/
theorem modifyKeeping (g : Graph) (id n : NodeId) {f : Node → Node} (hf : Node.Keeps f) :
    g.Touches (g.modifyNode n f) id := by
  have hcore : ∀ k, ((g.modifyNode n f).nodeAt k).core = (g.nodeAt k).core := by
    intro k
    rw [nodeAt_modifyNode]
    split
    · exact hf.core _
    · rfl
  exact ⟨g.modifyNode_nodes_size n f, fun k _ => hcore k, tag_eq_of_core (hcore id),
    parent_eq_of_core (hcore id), scope_eq_of_core (hcore id)⟩

theorem declare {d : Declaration} {target : ScopeId} (hok : g.declare d target = .ok g') :
    g.Touches g' d.node := by
  rcases declare_eq_ok hok with ⟨rfl, _⟩ | ⟨scope, _, rfl⟩
  · exact of_nodes rfl
  · have hscope : g.Touches (g.modifyScope target fun _ => scope) d.node := of_nodes rfl
    refine hscope.trans (modifySelf _ d.node ?_)
    exact fun _ => ⟨rfl, rfl, rfl⟩

theorem redefine (g : Graph) (space : SymbolSpace) (name : QName) (id : NodeId) (target : ScopeId) :
    g.Touches (g.redefine space name id target) id := by
  have hname : g.Touches (g.modifyNode id fun n => { n with name := some name }) id :=
    modifySelf g id fun _ => ⟨rfl, rfl, rfl⟩
  exact hname.trans (of_nodes rfl)

end Touches

/-- A change of a node is an edit that leaves scopes alone. -/
theorem Edits.modifyNode (g : Graph) (id : NodeId) (f : Node → Node) :
    Edits g [] (g.modifyNode id f) :=
  .single (.quiet rfl rfl rfl rfl fun _ => rfl)

section Effect

variable (g id) (n : NodeId) (e : Effect)

/-- What a tag does before it declares something: it leaves scopes alone, and of its node all but the
name. -/
theorem prepared : Edits g [] (((g.mark n e).contribute n e).bear id e) ∧
    g.Touches (((g.mark n e).contribute n e).bear id e) id := by
  have hmark : Edits g [] (g.mark n e) ∧ g.Touches (g.mark n e) id := by
    unfold mark
    split
    · exact ⟨.modifyNode g n _, .modifyKeeping g id n keeps_markMixed⟩
    · exact ⟨.refl, .of_nodes rfl⟩
  have hcontribute : Edits (g.mark n e) [] ((g.mark n e).contribute n e) ∧
      (g.mark n e).Touches ((g.mark n e).contribute n e) id := by
    unfold contribute
    split
    · exact ⟨.modifyNode _ n _, .modifyKeeping _ id n (keeps_addEnumeration _)⟩
    · exact ⟨.refl, .of_nodes rfl⟩
  have hbear : ∀ g : Graph, Edits g [] (g.bear id e) ∧ g.Touches (g.bear id e) id := by
    intro g
    unfold bear
    split
    · exact ⟨.modifyNode g id _, .modifySelf g id fun _ => ⟨rfl, rfl, rfl⟩⟩
    · exact ⟨.refl, .of_nodes rfl⟩
  exact ⟨(hmark.1.trans hcontribute.1).trans (hbear _).1,
    (hmark.2.trans hcontribute.2).trans (hbear _).2⟩

end Effect

/-- What a tag does after it has declared something: it may open a scope for its content. -/
theorem opened_own {scope own : ScopeId} {e : Effect} {g₂ : Graph}
    (hopens : e.opensScope = true → own = g₂.scopes.size ∧
      g' = (g₂.addScope (some scope) (g₂.scopeAt scope).ns).1.modifyNode id
        fun node => { node with ownScope := some g₂.scopes.size })
    (hstays : e.opensScope = false → own = scope ∧ g' = g₂) :
    Edits g₂ [] g' ∧ g₂.Touches g' id ∧ (g'.nodeAt id).name = (g₂.nodeAt id).name ∧
      (own = scope ∨ own < g'.scopes.size) := by
  cases hcase : e.opensScope with
  | false =>
    obtain ⟨hown, rfl⟩ := hstays hcase
    exact ⟨.refl, .of_nodes rfl, rfl, Or.inl hown⟩
  | true =>
    obtain ⟨rfl, rfl⟩ := hopens hcase
    have hscope := Edits.single (.addScope g₂ (some scope) (g₂.scopeAt scope).ns)
    have hnodes : g₂.Touches (g₂.addScope (some scope) (g₂.scopeAt scope).ns).1 id := .of_nodes rfl
    refine ⟨hscope.trans (.modifyNode _ id _), hnodes.trans (.modifySelf _ id ?_), ?_, Or.inr ?_⟩
    · exact fun _ => ⟨rfl, rfl, rfl⟩
    · rw [nodeAt_modifyNode]
      split <;> rfl
    · rw [modifyNode_scopes, addScope_scopes_size]
      exact Nat.lt_succ_self _

end Graph

namespace Reading

variable {request : Request} {g g' : Graph} {r r' : Reading} {f : Frame} {id : NodeId} {tag : Tag}
  {scope own : ScopeId} {e : Effect}

theorem register_touches {parentTag : Option Tag} {reg : Registration}
    (hok : register g id parentTag reg = .ok g') : g.Touches g' id := by
  unfold register at hok
  cases hname : reg.name with
  | none =>
    simp only [hname] at hok
    exact Graph.Touches.declare hok
  | some name =>
    simp only [hname] at hok
    split at hok
    · cases hok
      exact .redefine g reg.space name id _
    · exact Graph.Touches.declare hok

/-- Outside `redefine` nothing is redefined. -/
theorem register_edits {parentTag : Option Tag} {reg : Registration}
    (hok : register g id parentTag reg = .ok g') (hparent : parentTag ≠ some .redefineDoc) :
    g.Edits [] g' := by
  unfold register at hok
  cases hname : reg.name with
  | none =>
    simp only [hname] at hok
    exact .single (.declare hok)
  | some name =>
    simp only [hname, if_neg hparent] at hok
    exact .single (.declare hok)

theorem perform_touches (hok : perform g id scope f e = .ok (g', own)) :
    g.Touches g' id ∧ (own = scope ∨ own < g'.scopes.size) := by
  obtain ⟨g₂, hnone, hsome, hopens, hstays⟩ := Graph.perform_eq_ok hok
  obtain ⟨_, htouches, _, hown⟩ := Graph.opened_own hopens hstays
  have hprepared := (Graph.prepared g id f.node e).2
  refine ⟨?_, hown⟩
  cases hdeclares : e.declares with
  | none =>
    rw [hnone hdeclares] at htouches
    exact hprepared.trans htouches
  | some reg => exact (hprepared.trans (register_touches (hsome reg hdeclares))).trans htouches

/-- A tag that is not in `redefine`, or declares nothing, redefines nothing. -/
theorem perform_edits (hok : perform g id scope f e = .ok (g', own))
    (hnot : f.tag ≠ .redefineDoc ∨ e.declares = none) : g.Edits [] g' := by
  obtain ⟨g₂, hnone, hsome, hopens, hstays⟩ := Graph.perform_eq_ok hok
  have hopened := (Graph.opened_own hopens hstays).1
  have hprepared := (Graph.prepared g id f.node e).1
  cases hdeclares : e.declares with
  | none =>
    rw [hnone hdeclares] at hopened
    exact hprepared.trans hopened
  | some reg =>
    have htag : some f.tag ≠ some .redefineDoc := by
      intro heq
      rcases hnot with htag | hnothing
      · exact htag (Option.some.inj heq)
      · rw [hdeclares] at hnothing
        cases hnothing
    exact (hprepared.trans (register_edits (hsome reg hdeclares) htag)).trans hopened

/-- A tag in `redefine` redefines the name that it declares, and has this name. -/
theorem perform_redefines (hok : perform g id scope f e = .ok (g', own)) (htag : f.tag = .redefineDoc)
    {name : QName} {space : SymbolSpace} {occurs : Occurrence}
    (hdeclares : e.declares = some ⟨some name, space, occurs⟩) (hid : id < g.nodes.size)
    (hscope : (g.nodeAt id).scope < g.scopes.size) :
    g.Edits [⟨(space, name), id, (g.nodeAt id).scope⟩] g' ∧ (g'.nodeAt id).name = some name := by
  obtain ⟨g₂, _, hsome, hopens, hstays⟩ := Graph.perform_eq_ok hok
  obtain ⟨hopened, _, hname, _⟩ := Graph.opened_own hopens hstays
  obtain ⟨hprepared, htouches⟩ := Graph.prepared g id f.node e
  set g₁ := ((g.mark f.node e).contribute f.node e).bear id e
  have hregister := hsome _ hdeclares
  simp only [register, htag, if_true, htouches.scope, Except.ok.injEq] at hregister
  have hredefine : g₁.Edits [⟨(space, name), id, (g.nodeAt id).scope⟩] g₂ := by
    rw [← hregister]
    exact .single (.redefine ⟨(space, name), id, (g.nodeAt id).scope⟩
      (Nat.lt_of_lt_of_le hscope hprepared.scopes_size_le))
  refine ⟨(hprepared.trans hredefine).trans hopened, hname.trans ?_⟩
  rw [← hregister]
  change ((Graph.modifyNode _ id _).nodeAt id).name = some name
  rw [Graph.nodeAt_modifyNode_self _ _ _ (by rw [Graph.modifyScope_nodes, htouches.size]; exact hid)]

/-! ## Tags that open -/

/-- The node of an open tag is there and is that of its tag, and so is the scope of its content. -/
structure Framed (g : Graph) (f : Frame) : Prop where
  node_lt : f.node < g.nodes.size
  tag : (g.nodeAt f.node).tag = f.tag
  scope_lt : f.scope < g.scopes.size

theorem Framed.mono (h : Framed g f) (hlogged : g.Logged g') : Framed g' f where
  node_lt := Nat.lt_of_lt_of_le h.node_lt hlogged.size_le
  tag := (tag_eq_of_core (hlogged.core f.node h.node_lt)).trans h.tag
  scope_lt := Nat.lt_of_lt_of_le h.scope_lt hlogged.edits.scopes_size_le

/-- The newest node of `g'` is that of a tag which stands in the tag of the frame `f`. -/
structure Added (g g' : Graph) (f : Frame) (tag : Tag) : Prop where
  size : g'.nodes.size = g.nodes.size + 1
  core : ∀ n, n < g.nodes.size → (g'.nodeAt n).core = (g.nodeAt n).core
  tag : (g'.nodeAt g.nodes.size).tag = tag
  parent : (g'.nodeAt g.nodes.size).parent = some f.node
  scope : (g'.nodeAt g.nodes.size).scope = f.scope

namespace Added

theorem touches {g'' : Graph} (h : Added g g' f tag) (ht : g'.Touches g'' g.nodes.size) :
    Added g g'' f tag where
  size := ht.size.trans h.size
  core n hn := (ht.core n (Nat.ne_of_lt hn)).trans (h.core n hn)
  tag := ht.tag.trans h.tag
  parent := ht.parent.trans h.parent
  scope := ht.scope.trans h.scope

theorem redefinition?_eq_none (h : Added g g' f tag) (hf : Framed g f)
    (hnot : f.tag ≠ .redefineDoc ∨ tag.definedSpace? = none ∨
      (g'.nodeAt g.nodes.size).name = none) : g'.redefinition? g.nodes.size = none := by
  unfold Graph.redefinition?
  rw [h.parent, h.tag]
  rcases hnot with hother | hspace | hname
  · have htag : (g'.nodeAt f.node).tag ≠ .redefineDoc := by
      rw [tag_eq_of_core (h.core f.node hf.node_lt), hf.tag]
      exact hother
    cases (g'.nodeAt g.nodes.size).name with
    | none => rfl
    | some name =>
      cases tag.definedSpace? with
      | none => rfl
      | some space => exact if_neg htag
  · rw [hspace]
    cases (g'.nodeAt g.nodes.size).name <;> rfl
  · rw [hname]

theorem redefinition?_eq_some (h : Added g g' f tag) (hf : Framed g f) (htag : f.tag = .redefineDoc)
    {space : SymbolSpace} {name : QName} (hspace : tag.definedSpace? = some space)
    (hname : (g'.nodeAt g.nodes.size).name = some name) :
    g'.redefinition? g.nodes.size = some ⟨(space, name), g.nodes.size, f.scope⟩ := by
  have hparent : (g'.nodeAt f.node).tag = .redefineDoc := by
    rw [tag_eq_of_core (h.core f.node hf.node_lt), hf.tag, htag]
  unfold Graph.redefinition?
  rw [h.parent, h.tag, hspace, hname, h.scope]
  exact if_pos hparent

theorem logged (h : Added g g' f tag) (hf : Framed g f)
    (hedits : g.Edits (g'.redefinition? g.nodes.size).toList g') : g.Logged g' := by
  refine .newest h.size h.core (fun p hp => ?_) hedits
  rw [h.parent] at hp
  cases hp
  exact hf.node_lt

end Added

/-- A tag adds its node, which gets its payload before anything else happens. -/
theorem added_addTagNode (hf : Framed r.graph f) (tag : Tag) (position : Position)
    (attributes : List (String × String)) (payload : Payload) {g : Graph}
    (hg : g = (r.addTagNode (some f) tag position attributes).1.graph.modifyNode r.graph.nodes.size
      fun node => { node with payload }) :
    Added r.graph g f tag ∧ (g.nodeAt r.graph.nodes.size).name = none ∧ r.graph.Edits [] g := by
  set node := r.tagNode f tag position attributes
  have hgraph : (r.addTagNode (some f) tag position attributes).1.graph =
      (r.graph.addNode node).1.modifyNode f.node
        fun n => { n with children := n.children ++ [r.graph.nodes.size] } := rfl
  rw [hgraph] at hg
  have hnew : g.nodeAt r.graph.nodes.size = { node with payload } := by
    rw [hg, Graph.nodeAt_modifyNode_self _ _ _ (by simp),
      Graph.nodeAt_modifyNode_ne _ _ _ (Nat.ne_of_gt hf.node_lt), Graph.nodeAt_addNode_self]
  have hadd : r.graph.Edits [] (r.graph.addNode node).1 :=
    .single (.quiet rfl rfl rfl rfl fun _ => rfl)
  refine ⟨⟨?_, fun n hn => ?_, congrArg Node.tag hnew, congrArg Node.parent hnew,
    congrArg Node.scope hnew⟩, congrArg Node.name hnew, ?_⟩
  · rw [hg]
    simp
  · rw [hg, Graph.nodeAt_modifyNode_ne _ _ _ (Nat.ne_of_lt hn), Graph.nodeAt_modifyNode]
    split
    · rw [Graph.nodeAt_addNode_of_lt _ _ hn]
      rfl
    · rw [Graph.nodeAt_addNode_of_lt _ _ hn]
  · rw [hg]
    exact (hadd.trans (.modifyNode _ f.node _)).trans (.modifyNode _ _ _)

/-- What a tag does apart from adding its node: it redefines what its node says it does. -/
theorem Added.perform {g₁ : Graph} (h : Added g g₁ f tag) (hf : Framed g f) (hedits : g.Edits [] g₁)
    {s : Site} (hparent : s.parentTag = some f.tag) (htag : s.tag = tag)
    (hmay : f.tag.mayContain tag = true) (heffect : s.plan.effect = .ok e)
    (hok : Reading.perform g₁ g.nodes.size f.scope f e = .ok (g', own)) :
    Added g g' f tag ∧ g.Edits (g'.redefinition? g.nodes.size).toList g' ∧
      (own = f.scope ∨ own < g'.scopes.size) := by
  obtain ⟨htouches, hown⟩ := perform_touches hok
  have hadded := h.touches htouches
  refine ⟨hadded, ?_, hown⟩
  by_cases hredefine : f.tag = .redefineDoc
  · rw [hredefine] at hparent hmay
    rcases Site.declares_in_redefine hparent (htag ▸ hmay) heffect with
      ⟨hspace, hnone⟩ | ⟨space, name, occurs, hspace, hdeclares⟩ <;> rw [htag] at hspace
    · rw [hadded.redefinition?_eq_none hf (Or.inr (Or.inl hspace))]
      exact hedits.trans (perform_edits hok (Or.inr hnone))
    · have hscope : (g₁.nodeAt g.nodes.size).scope < g₁.scopes.size := by
        rw [h.scope]
        exact Nat.lt_of_lt_of_le hf.scope_lt hedits.scopes_size_le
      obtain ⟨hredefines, hname⟩ := perform_redefines hok hredefine hdeclares
        (by rw [h.size]; exact Nat.lt_succ_self _) hscope
      rw [hadded.redefinition?_eq_some hf hredefine hspace hname, ← h.scope]
      exact hedits.trans hredefines
  · rw [hadded.redefinition?_eq_none hf (Or.inl hredefine)]
    exact hedits.trans (perform_edits hok (Or.inl hredefine))

/-- The outermost tag registers its namespace and adds its document, and its node moves to the root
scope. -/
theorem openSchema_eq (request : Request) (hg : r.graph.Tidy) (id : NodeId)
    (attributes : List (String × String)) :
    ∃ (g : Graph) (document : Option DocumentId) (root : ScopeId),
      r.graph.Edits [] g ∧ g.nodes = r.graph.nodes ∧ root < g.scopes.size ∧
      (openSchema request r id attributes).graph = g.modifyNode id (fun node =>
        { node with document, scope := root, ownScope := some root }) ∧
      (openSchema request r id attributes).frames = ⟨id, .schema, root, .once⟩ :: r.frames := by
  set uri := documentUri request (attributes.lookup "targetNamespace")
  set g₁ := (r.graph.register uri).1
  set document : Document :=
    { url := request.url
      ns := (r.graph.register uri).2
      route := request.route
      elementQualified := attributes.lookup "elementFormDefault" = some "qualified"
      attributeQualified := attributes.lookup "attributeFormDefault" = some "qualified" }
  set g₂ := (g₁.addDocument document).1
  have hdocument : g₁.Edits [] g₂ := .single (.quiet rfl rfl rfl
    (Graph.addDocument_namespaces_size g₁ document)
    fun i => (Graph.addDocument_namespaceAt g₁ document i).2)
  have hedits := (Graph.Edits.single (.register r.graph uri)).trans hdocument
  refine ⟨g₂, some g₁.documents.size, (g₂.namespaceAt document.ns).root, hedits,
    Graph.register_nodes r.graph uri, (hedits.tidy hg).root_lt _ ?_, rfl, rfl⟩
  rw [Graph.addDocument_namespaces_size]
  exact Graph.register_lt r.graph uri

/-- What has been read into `g` so far has a log, and the open tags stand. -/
structure Logged (g : Graph) (r : Reading) : Prop where
  graph : g.Logged r.graph
  frames : ∀ f ∈ r.frames, Framed r.graph f

namespace Logged

/-- A tag within another one opens or is refused. -/
theorem openTag (h : Logged g r) (hf : f ∈ r.frames) (hmay : f.tag.mayContain tag = true)
    (request : Request) (position : Position) (attributes : List (String × String)) :
    Yields (Logged g) (fun halt => g.Logged halt.graph)
      (Reading.openTag request (r.addTagNode (some f) tag position attributes).1
        (r.addTagNode (some f) tag position attributes).2 f tag position attributes) := by
  have hframed := h.frames f hf
  cases hresult : Reading.openTag request (r.addTagNode (some f) tag position attributes).1
      (r.addTagNode (some f) tag position attributes).2 f tag position attributes with
  | error halt =>
    -- the node of a tag that is refused has no name yet, so it does not count as a redefinition
    obtain ⟨payload, heq⟩ := openTag_eq_error hresult
    obtain ⟨hadded, hname, hedits⟩ := added_addTagNode hframed tag position attributes payload heq
    change g.Logged halt.graph
    refine h.graph.trans (hadded.logged hframed ?_)
    rw [hadded.redefinition?_eq_none hframed (Or.inr (Or.inr hname))]
    exact hedits
  | ok r' =>
    obtain ⟨e, own, g', heffect, hperform, rfl⟩ := openTag_eq_ok hresult
    obtain ⟨hnode, _, hedits⟩ := added_addTagNode hframed tag position attributes _ rfl
    obtain ⟨hadded, hlog, hown⟩ := hnode.perform hframed hedits rfl rfl hmay heffect hperform
    have hlogged := hadded.logged hframed hlog
    refine ⟨h.graph.trans hlogged, fun f' hf' => ?_⟩
    rcases List.mem_cons.mp hf' with rfl | hold
    · refine ⟨?_, hadded.tag, ?_⟩
      · rw [hadded.size]
        exact Nat.lt_succ_self _
      · rcases hown with rfl | hlt
        · exact (hframed.mono hlogged).scope_lt
        · exact hlt
    · exact (h.frames f' hold).mono hlogged

/-- The outermost tag opens. -/
theorem openSchema (hg : g.Tidy) (h : Logged g r) (request : Request) (position : Position)
    (attributes : List (String × String)) :
    Logged g (Reading.openSchema request (r.addTagNode none .schema position attributes).1
      (r.addTagNode none .schema position attributes).2 attributes) := by
  set node : Node := { Node.ofTag .schema (r.graph.namespaceAt Graph.schemaNamespace).root position with
    attributes, document := r.document }
  have hadd : r.graph.Edits [] (r.graph.addNode node).1 :=
    .single (.quiet rfl rfl rfl rfl fun _ => rfl)
  obtain ⟨g₂, document, root, hedits, hnodes, hroot, hgraph, hframes⟩ :=
    openSchema_eq (r := (r.addTagNode none .schema position attributes).1) request
      (hadd.tidy (h.graph.edits.tidy hg)) r.graph.nodes.size attributes
  set r' := Reading.openSchema request (r.addTagNode none .schema position attributes).1
    r.graph.nodes.size attributes
  change Logged g r'
  change g₂.nodes = (r.graph.addNode node).1.nodes at hnodes
  have hnode : ∀ n, g₂.nodeAt n = (r.graph.addNode node).1.nodeAt n := fun n => by
    rw [Graph.nodeAt, hnodes, Graph.nodeAt]
  have hsize : g₂.nodes.size = r.graph.nodes.size + 1 := by
    rw [hnodes, Graph.addNode_nodes_size]
  have hself : (r'.graph.nodeAt r.graph.nodes.size).tag = .schema ∧
      (r'.graph.nodeAt r.graph.nodes.size).parent = none := by
    rw [hgraph, Graph.nodeAt_modifyNode_self _ _ _ (by rw [hsize]; exact Nat.lt_succ_self _), hnode,
      Graph.nodeAt_addNode_self]
    exact ⟨rfl, rfl⟩
  have hsize' : r'.graph.nodes.size = r.graph.nodes.size + 1 := by
    rw [hgraph, Graph.modifyNode_nodes_size, hsize]
  have hlogged : r.graph.Logged r'.graph := by
    refine .newest hsize' (fun n hn => ?_) (fun p hp => ?_) ?_
    · rw [hgraph, Graph.nodeAt_modifyNode_ne _ _ _ (Nat.ne_of_lt hn), hnode,
        Graph.nodeAt_addNode_of_lt _ _ hn]
    · rw [hself.2] at hp
      cases hp
    · have hnone : r'.graph.redefinition? r.graph.nodes.size = none := by
        unfold Graph.redefinition?
        rw [hself.2]
      rw [hnone, hgraph]
      exact (hadd.trans hedits).trans (.modifyNode g₂ _ _)
  refine ⟨h.graph.trans hlogged, fun f hf => ?_⟩
  rw [hframes] at hf
  rcases List.mem_cons.mp hf with rfl | hold
  · refine ⟨hsize' ▸ Nat.lt_succ_self _, hself.1, ?_⟩
    rw [hgraph]
    exact hroot
  · exact (h.frames f hold).mono hlogged

theorem listens (h : Logged g r) (hlistens : r.Listens r') : Logged g r' := by
  have hgraph : r.graph.Logged r'.graph := by
    rcases hlistens.graph with heq | ⟨id, f, hf, heq⟩ <;> rw [heq]
    · exact .refl _
    · exact .modifyNode _ id (hf.core _)
  exact ⟨h.graph.trans hgraph, fun f hf => (h.frames f (hlistens.frames hf)).mono hgraph⟩

/-- One event of a document. -/
theorem step (hg : g.Tidy) (h : Logged g r) (request : Request) (event : Position × Markup.Event) :
    Yields (Logged g) (fun halt => g.Logged halt.graph) (Reading.step request r event) := by
  obtain ⟨position, event⟩ := event
  cases event with
  | opened name attributes =>
    have h₁ : Logged g (r.within attributes) := ⟨h.graph, h.frames⟩
    change Yields _ _ (r.opened request position name attributes)
    rcases opened_cases request r position name attributes with
      ⟨skipped, diagnostics, heq⟩ | ⟨error, heq⟩ | heq | ⟨f, tag, hf, hmay, heq⟩ <;> rw [heq]
    · have hquiet : r.graph.Logged { r.graph with diagnostics } :=
        .of_edits rfl (fun _ _ => rfl) (.single (.quiet rfl rfl rfl rfl fun _ => rfl))
      exact ⟨h.graph.trans hquiet, fun f hf => (h.frames f hf).mono hquiet⟩
    · exact h.graph
    · exact h₁.openSchema hg request position _
    · exact h₁.openTag hf hmay request position _
  | closed => exact h.listens r.closed_listens
  | text content => exact h.listens (r.text_listens content)

end Logged

/-- A document that is read, or that stops, has a log. -/
theorem read_logged (hg : g.Tidy) (h : g.Logged g') (request : Request) (text : String) :
    Yields (fun result => g.Logged result.1) (fun halt => g.Logged halt.graph)
      (Reading.read request g' text) := by
  have hstart : Logged g { graph := g' } := ⟨h, fun f hf => absurd hf List.not_mem_nil⟩
  refine (Yields.foldlM (fun r event hr => hr.step hg request event) _ hstart).bind fun r hr => ?_
  unfold Reading.finish
  split
  · exact hr.graph
  split
  · exact hr.graph
  split
  · exact hr.graph
  · exact hr.graph

end Reading

namespace Graph

variable {g : Graph}

theorem loadInvariant_logged (hg : g.Tidy) : LoadInvariant g.Logged where
  register uri h := h.trans (.register _ uri)
  read request text h := Reading.read_logged hg h request text
  modifyNode id hcore _ h := h.trans (.modifyNode _ id hcore)
  markLoaded {g'} h := by
    refine h.trans (.of_edits rfl (fun _ _ => rfl) (.single (.quiet rfl rfl rfl ?_ ?_)))
    · exact Loading.markLoaded_namespaces_size g'
    · exact Loading.markLoaded_root g'

/-- What is redefined when documents are read or loaded can be read off the new nodes. -/
theorem Call.logged (hg : g.Tidy) (call : Call) : g.Logged (call.perform g) :=
  (loadInvariant_logged hg).call (.refl g) call

end Graph

end XsdTypes
