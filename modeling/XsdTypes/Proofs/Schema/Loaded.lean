import XsdTypes.Proofs.Schema.Binding
import XsdTypes.Proofs.Schema.Loading

/-!
# Loaded graphs

When loading succeeds, every name that a node uses is bound to what it denotes in the graph that
loading ends with. When all documents have been read, loading fails only for a name that denotes
nothing.
-/

namespace XsdTypes

open Resolution

namespace Graph

/-- A graph whose documents have been read and whose names have been bound. -/
structure Loaded (policy : RepeatPolicy) (g : Graph) : Prop extends Grown (initial policy) g where
  resolved : ∀ n, (initial policy).nodes.size ≤ n → n < g.nodes.size →
    (g.nodeAt n).resolved = true
  bound : ∀ n, (initial policy).nodes.size ≤ n → n < g.nodes.size →
    Resolution.bind g n = .ok (g.nodeAt n).payload
  typed : ∀ n, ∀ t ∈ (g.nodeAt n).payload.typeNodes, g.IsType t
  /-- Nothing but a name is bound to a group. -/
  unbound : ∀ n, (initial policy).nodes.size ≤ n → n < g.nodes.size → ∀ target,
    (g.nodeAt n).payload ≠ .group none (some target)

variable {g g' : Graph} {policy : RepeatPolicy}

/-- The names of nodes and their places do not depend on what has been bound. -/
theorem place_of_frame {n n' : Node} (h : n'.frame = n.frame) :
    (n'.tag = n.tag ∧ n'.scope = n.scope ∧ n'.ownScope = n.ownScope ∧ n'.parent = n.parent ∧
      n'.children = n.children) ∧ n'.name = n.name := by
  have htag := congrArg Node.tag h
  have hscope := congrArg Node.scope h
  have hown := congrArg Node.ownScope h
  have hparent := congrArg Node.parent h
  have hchildren := congrArg Node.children h
  have hname := congrArg Node.name h
  exact ⟨⟨htag, hscope, hown, hparent, hchildren⟩, hname⟩

theorem IsType.congr {t : NodeId} (h : g.IsType t) (hsame : SameNames g g')
    (hsize : g'.nodes.size = g.nodes.size) : g'.IsType t := by
  obtain ⟨⟨htag, hscope, _⟩, hname⟩ := place_of_frame (hsame.frame t)
  rw [IsType, hsize, htag, hname, hscope, hsame.scopeAt]
  exact h

theorem sameNames_markLoaded (g : Graph) : SameNames g (Loading.markLoaded g) where
  scopes := rfl
  namespaceId? _ := rfl
  root := Loading.markLoaded_root g
  documents := rfl
  frame _ := rfl

theorem Grown.markLoaded {g₀ : Graph} (h : g₀.Grown g) : g₀.Grown (Loading.markLoaded g) :=
  h.extend (Loading.sound_markLoaded h.sound) (Loading.extends_markLoaded g) rfl

theorem Grown.resolved {g₀ : Graph} (h : g₀.Grown g) {first last : NodeId}
    (hres : Resolved g first last g') : g₀.Grown g' := by
  have hplace := fun n => place_of_frame (hres.sameNames.frame n)
  refine h.extend ?_ (Extends.of_nodes (Nat.le_of_eq hres.size.symm) (fun n _ => ?_) hres.scopes
    hres.namespaces hres.policy) hres.size
  · exact h.sound.of_nodes hres.size (fun n => (hplace n).1) (fun n _ => (hplace n).2) hres.scopes
      (by rw [hres.namespaces]) (fun i => by rw [namespaceAt, hres.namespaces, namespaceAt])
      (fun i => by rw [namespaceAt, hres.namespaces, namespaceAt]) hres.policy
  · by_cases hn : first ≤ n ∧ n < last
    · obtain ⟨payload, hbind, heq⟩ := hres.bound n hn.1 hn.2
      rw [heq]
      simp only [Node.core, (bind_eq_ok_iff.mp hbind).written]
    · rw [hres.same n hn]

/-- What is built in is a type or an attribute. -/
theorem Grown.new_of_tag (h : (initial policy).Grown g) {n : NodeId}
    (hbuiltin : (g.nodeAt n).tag ≠ .builtin) (hattr : (g.nodeAt n).tag ≠ .attr) :
    (initial policy).nodes.size ≤ n := by
  by_contra hold
  have hlt := Nat.lt_of_not_le hold
  rw [h.ext.tag hlt] at hbuiltin hattr
  rcases isBuiltinNode_cases (initial_nodes policy hlt) with ⟨htag, _⟩ | ⟨htag, _⟩
  · exact hbuiltin htag
  · exact hattr htag

/-- What is built in refers to built-in types only. -/
theorem Grown.typed_old (h : (initial policy).Grown g) {n : NodeId}
    (hn : n < (initial policy).nodes.size) {t : NodeId}
    (ht : t ∈ ((initial policy).nodeAt n).payload.typeNodes) : g.IsType t := by
  rcases isBuiltinNode_cases (initial_nodes policy hn) with
    ⟨_, primitive, hpayload⟩ | ⟨_, a, prohibited, type, primitive, hpayload, _, htype, hbuiltin⟩
  · rw [hpayload] at ht
    cases ht
  rw [hpayload, Payload.typeNodes, htype] at ht
  cases List.mem_singleton.mp ht
  -- a node with a payload is there, and one with this payload is a built-in type
  have hlt : t < (initial policy).nodes.size := by
    by_contra hge
    rw [nodeAt, getD_of_size_le _ (Nat.le_of_not_lt hge)] at hbuiltin
    cases hbuiltin
  have htag : (g.nodeAt t).tag = .builtin := by
    rw [h.ext.tag hlt]
    rcases isBuiltinNode_cases (initial_nodes policy hlt) with ⟨htag, _⟩ | ⟨_, a', _, _, _, hattr, _⟩
    · exact htag
    · rw [hbuiltin] at hattr
      cases hattr
  exact ⟨Nat.lt_of_lt_of_le hlt h.ext.nodes_le, by rw [htag]; rfl, Or.inl htag⟩

/-- Binding the names of a graph that has been read makes it a loaded one. -/
theorem Read.loaded (h : (initial policy).Read g)
    (hres : Resolved g (initial policy).nodes.size g.nodes.size g') :
    (Loading.markLoaded g').Loaded policy := by
  have hsame := hres.sameNames.trans (sameNames_markLoaded g')
  refine
    { toGrown := (h.toGrown.resolved hres).markLoaded
      resolved := fun n hnew hn => ?_
      bound := fun n hnew hn => ?_
      typed := fun n t ht => ?_
      unbound := fun n hnew hn target hpayload => ?_ }
  · obtain ⟨payload, _, heq⟩ := hres.bound n hnew (hres.size ▸ hn)
    change (g'.nodeAt n).resolved = true
    rw [heq]
  · obtain ⟨payload, hbind, heq⟩ := hres.bound n hnew (hres.size ▸ hn)
    have hpayload : ((Loading.markLoaded g').nodeAt n).payload = payload := by
      change (g'.nodeAt n).payload = payload
      rw [heq]
    rw [bind_eq_ok_iff, hpayload]
    exact (bind_eq_ok_iff.mp hbind).again hsame
  · change t ∈ (g'.nodeAt n).payload.typeNodes at ht
    refine IsType.congr ?_ hsame hres.size
    by_cases hn : (initial policy).nodes.size ≤ n ∧ n < g.nodes.size
    · obtain ⟨payload, hbind, heq⟩ := hres.bound n hn.1 hn.2
      rw [heq] at ht
      have hpending : (g.nodeAt n).payload.typeNodes = [] :=
        congrArg (fun b => b.2.1) (h.pending n hn.1 hn.2)
      exact (bind_eq_ok_iff.mp hbind).typed h.toGrown hn.1 hn.2 (h.holds hn.1 hn.2) hpending t ht
    · rw [hres.same n hn] at ht
      rcases Nat.lt_or_ge n (initial policy).nodes.size with hold | hnew
      · have hkept : (g.nodeAt n).payload.typeNodes =
            ((initial policy).nodeAt n).payload.typeNodes :=
          congrArg (fun b => b.2.1) (h.kept n hold)
        rw [hkept] at ht
        exact h.toGrown.typed_old hold ht
      · have hlt : ¬ n < g.nodes.size := fun hlt => hn ⟨hnew, hlt⟩
        rw [nodeAt, getD_of_size_le _ (Nat.le_of_not_lt hlt)] at ht
        cases ht
  · obtain ⟨payload, hbind, heq⟩ := hres.bound n hnew (hres.size ▸ hn)
    change (g'.nodeAt n).payload = _ at hpayload
    rw [heq] at hpayload
    change payload = _ at hpayload
    -- without a name the payload is what it was when the documents had been read
    have hsame := (bind_eq_ok_iff.mp hbind).eq_of_group_none hpayload
    have hpending := congrArg (fun b => b.2.2) (h.pending n hnew (hres.size ▸ hn))
    simp only [Node.bound, hsame, Payload.targets] at hpending
    cases hpending

theorem Loaded.binds (h : g.Loaded policy) {n : NodeId} (hnew : (initial policy).nodes.size ≤ n)
    (hn : n < g.nodes.size) : ∀ u ∈ g.uses n, g.Binds u :=
  (bind_eq_ok_iff.mp (h.bound n hnew hn)).binds h.toGrown hnew hn (h.holds hnew hn)

/-- A node that is not built in. -/
def IsNew (policy : RepeatPolicy) (g : Graph) (n : NodeId) : Prop :=
  (initial policy).nodes.size ≤ n ∧ n < g.nodes.size

instance (policy : RepeatPolicy) (g : Graph) (n : NodeId) : Decidable (IsNew policy g n) :=
  inferInstanceAs (Decidable (_ ∧ _))

/-- A node whose names can be bound uses only names that denote something. -/
theorem Grown.denotes_of_bind {g₀ : Graph} (h : g₀.Grown g) {n : NodeId}
    (hnew : g₀.nodes.size ≤ n) (hn : n < g.nodes.size) {payload : Payload}
    (hbind : Resolution.bind g n = .ok payload) :
    ∀ u ∈ g.uses n, ∃ node, g.Denotes u.symbol node := by
  have hb := bind_eq_ok_iff.mp hbind
  have hholds : (g.nodeAt n).tag.holds payload = true := by
    rw [← Tag.holds_written, hb.written, Tag.holds_written]
    exact h.holds hnew hn
  intro u hu
  -- the bound payload uses the same names
  have hmem : u.symbol ∈ (payload.uses (g.nodeAt n).tag (g.hasInlineType n)).map NameUse.symbol := by
    rw [← Payload.uses_written, hb.written, Payload.uses_written]
    exact List.mem_map_of_mem hu
  obtain ⟨u', hu', hsymbol⟩ := List.mem_map.mp hmem
  obtain ⟨node, _, hdenotes, _⟩ := hb.binds h hnew hn hholds u' hu'
  exact ⟨node, hsymbol ▸ hdenotes⟩

end Graph

namespace Loading

variable {documents : String → Except FetchFault String} {limit : Nat} {policy : RepeatPolicy}
  {url : String} {ns : Option String}

theorem load_loaded {g : Graph} {entry : NamespaceId}
    (hok : load (m := Id) documents limit (Graph.initial policy) url ns = .ok (g, entry)) :
    g.Loaded policy := by
  obtain ⟨l, g', hrun, hresolve, rfl⟩ := load_eq_ok (documentId?_initial policy url) hok
  have hread := (Valid.run valid_start hrun).read
  rcases resolveAll_cases fun n hnew hn => congrArg Prod.fst (hread.pending n hnew hn) with
    ⟨g'', hg'', hres⟩ | ⟨_, _, _, _, _, _, herror⟩
  · cases hresolve.symm.trans hg''
    exact hread.loaded hres
  · cases hresolve.symm.trans herror

/-- When all documents have been read, loading succeeds or stops at a node whose names cannot be
bound. -/
theorem load_of_run {l : Loading}
    (hrun : run (m := Id) documents limit (start (Graph.initial policy) url ns) = .ok l) :
    ((∃ r, load (m := Id) documents limit (Graph.initial policy) url ns = .ok r) ∧
      ∀ n, Graph.IsNew policy l.graph n → ∃ payload, Resolution.bind l.graph n = .ok payload) ∨
    ∃ n e g', Graph.IsNew policy l.graph n ∧ Resolution.bind l.graph n = .error e ∧
      load (m := Id) documents limit (Graph.initial policy) url ns = .error ⟨e, g'⟩ := by
  have hvalid := Valid.run valid_start hrun
  obtain ⟨_, hpending⟩ := run_eq_ok hrun
  have hread := hvalid.read
  have hentry : l.entry.isSome := by
    rcases hvalid.entry with hsome | ⟨request, hmem, _⟩
    · exact hsome
    · rw [hpending] at hmem
      cases hmem
  obtain ⟨entry, hentry⟩ := Option.isSome_iff_exists.mp hentry
  rw [load_unread _ _ (documentId?_initial policy url), hrun]
  rcases resolveAll_cases fun n hnew hn => congrArg Prod.fst (hread.pending n hnew hn) with
    ⟨g', hg', hres⟩ | ⟨n, e, g', hnew, hn, hbind, herror⟩
  · refine Or.inl ⟨⟨(markLoaded g', entry), ?_⟩, fun n hn => ?_⟩
    · simp only [finish, hg', hentry]
      rfl
    · obtain ⟨payload, hbind, _⟩ := hres.bound n hn.1 hn.2
      exact ⟨payload, hbind⟩
  · refine Or.inr ⟨n, e, g', ⟨hnew, hn⟩, hbind, ?_⟩
    simp only [finish, herror]
    rfl

/-- A load that succeeds binds every name that a node uses to what it denotes in the end, wherever
that is declared, and for types it does not matter from which scope the name is looked up. When all
documents can be read, a load succeeds if every name that is used denotes something, and otherwise
reports one that does not. -/
theorem load_binds_names (documents : String → Except FetchFault String) (limit : Nat)
    (policy : RepeatPolicy) (url : String) (ns : Option String) :
    (∀ g entry, load (m := Id) documents limit (Graph.initial policy) url ns = .ok (g, entry) →
      (∀ n, Graph.IsNew policy g n → (g.nodeAt n).resolved = true ∧ ∀ u ∈ g.uses n, g.Binds u) ∧
      ∀ start name, g.lookup? start (.type, name) = g.findGlobal? (.type, name)) ∧
    ∀ l, run (m := Id) documents limit (start (Graph.initial policy) url ns) = .ok l →
      ((∃ r, load (m := Id) documents limit (Graph.initial policy) url ns = .ok r) ↔
        ∀ n, Graph.IsNew policy l.graph n → ∀ u ∈ l.graph.uses n,
          ∃ node, l.graph.Denotes u.symbol node) ∧
      ∀ halt, load (m := Id) documents limit (Graph.initial policy) url ns = .error halt →
        ∃ n, Graph.IsNew policy l.graph n ∧ ∃ u ∈ l.graph.uses n,
          (∀ node, ¬ l.graph.Denotes u.symbol node) ∧
          halt.error = .unresolved u.symbol.1 u.symbol.2 (l.graph.location n) := by
  refine ⟨fun g entry hok => ?_, fun l hrun => ?_⟩
  · have hloaded := load_loaded hok
    exact ⟨fun n hn => ⟨hloaded.resolved n hn.1 hn.2, hloaded.binds hn.1 hn.2⟩,
      fun start name => Graph.lookup?_type hloaded.sound start name⟩
  · have hgrown := (Valid.run valid_start hrun).read.toGrown
    rcases load_of_run hrun with ⟨⟨r, hok⟩, hall⟩ | ⟨n, e, g', hn, hbind, herror⟩
    · refine ⟨⟨fun _ n hn => ?_, fun _ => ⟨r, hok⟩⟩, fun halt hhalt => ?_⟩
      · obtain ⟨payload, hbind⟩ := hall n hn
        exact hgrown.denotes_of_bind hn.1 hn.2 hbind
      · rw [hok] at hhalt
        cases hhalt
    · obtain ⟨u, hu, he, hfree⟩ := bind_eq_error_uses hgrown hn.1 hn.2 hbind
      refine ⟨⟨fun ⟨r, hok⟩ => ?_, fun hdenote => ?_⟩, fun halt hhalt => ?_⟩
      · rw [herror] at hok
        cases hok
      · obtain ⟨node, hnode⟩ := hdenote n hn u hu
        exact absurd hnode (hfree node)
      · rw [herror] at hhalt
        cases hhalt
        exact ⟨n, hn, u, hu, hfree, he⟩

/-- Two documents: the first uses a type of the second, which has elements of this type and refers
to one of them before it is declared. -/
def treeDocuments (url : String) : Except FetchFault String :=
  if url = "a" then
    .ok ("<schema xmlns='http://www.w3.org/2001/XMLSchema' xmlns:b='b'>" ++
      "<import namespace='b' schemaLocation='b'/><element name='e' type='b:T'/></schema>")
  else
    .ok ("<schema xmlns='http://www.w3.org/2001/XMLSchema' xmlns:b='b' targetNamespace='b'>" ++
      "<complexType name='T'><sequence maxOccurs='unbounded'><element ref='b:e'/></sequence>" ++
      "</complexType><element name='e' type='b:T'/></schema>")

/-- A document with a name that denotes nothing. -/
def strayDocument (_ : String) : Except FetchFault String :=
  .ok ("<x:schema xmlns:x='http://www.w3.org/2001/XMLSchema'>" ++
    "<x:element name='e' type='T'/></x:schema>")

set_option maxRecDepth 100000 in
theorem load_treeDocuments :
    ∃ g entry, load (m := Id) treeDocuments 2 (Graph.initial .standard) "a" none = .ok (g, entry) ∧
      ∃ n, Graph.IsNew .standard g n ∧ g.uses n ≠ [] := by
  have heval : ((load (m := Id) treeDocuments 2 (Graph.initial .standard) "a" none).toOption.map
      fun r => (List.range r.1.nodes.size).any fun n =>
        decide (Graph.IsNew .standard r.1 n ∧ r.1.uses n ≠ [])) = some true :=
    load_of_letters (fun _ => .ite (.append (.ok _) _) (.append (.append (.ok _) _) _))
      (by decide +kernel)
  obtain ⟨r, hload, hany⟩ := Sequencing.eq_ok_of_toOption heval
  obtain ⟨n, _, hn⟩ := List.any_eq_true.mp hany
  exact ⟨r.1, r.2, hload, n, of_decide_eq_true hn⟩

set_option maxRecDepth 100000 in
theorem load_strayDocument :
    ∃ halt, load (m := Id) strayDocument 1 (Graph.initial .standard) "a" none = .error halt ∧
      ∃ l, run (m := Id) strayDocument 1 (start (Graph.initial .standard) "a" none) = .ok l := by
  have heval : ((run (m := Id) strayDocument 1 (start (Graph.initial .standard) "a"
      none)).toOption.map fun l =>
        (l.finish "a" (Graph.initial .standard).nodes.size).toOption.isNone) = some true :=
    run_of_letters (fun _ => .append (.ok _) _) (by decide +kernel)
  obtain ⟨l, hrun, hnone⟩ := Sequencing.eq_ok_of_toOption heval
  cases hfinish : l.finish "a" (Graph.initial .standard).nodes.size with
  | ok r =>
    rw [hfinish] at hnone
    cases hnone
  | error halt =>
    refine ⟨halt, ?_, l, hrun⟩
    rw [load_unread strayDocument 1 (documentId?_initial .standard "a"), hrun]
    exact hfinish

theorem load_binds_names_example :
    (∃ g entry n u,
      load (m := Id) treeDocuments 2 (Graph.initial .standard) "a" none = .ok (g, entry) ∧
      Graph.IsNew .standard g n ∧ u ∈ g.uses n ∧ g.Binds u) ∧
    ∃ halt l n u, run (m := Id) strayDocument 1 (start (Graph.initial .standard) "a" none) = .ok l ∧
      load (m := Id) strayDocument 1 (Graph.initial .standard) "a" none = .error halt ∧
      Graph.IsNew .standard l.graph n ∧ u ∈ l.graph.uses n ∧
      halt.error = .unresolved u.symbol.1 u.symbol.2 (l.graph.location n) := by
  constructor
  · obtain ⟨g, entry, hload, n, hn, huses⟩ := load_treeDocuments
    obtain ⟨u, hu⟩ := List.exists_mem_of_ne_nil _ huses
    have hbinds := (load_binds_names treeDocuments 2 .standard "a" none).1 g entry hload
    exact ⟨g, entry, n, u, hload, hn, hu, (hbinds.1 n hn).2 u hu⟩
  · obtain ⟨halt, hload, l, hrun⟩ := load_strayDocument
    obtain ⟨n, hn, u, hu, _, herror⟩ :=
      ((load_binds_names strayDocument 1 .standard "a" none).2 l hrun).2 halt hload
    exact ⟨halt, l, n, u, hrun, hload, hn, hu, herror⟩

end Loading

end XsdTypes
