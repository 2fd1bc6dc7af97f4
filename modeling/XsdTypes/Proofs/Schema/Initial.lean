import XsdTypes.Proofs.Schema.Opening

/-!
# The graph before any document

A graph with nothing but what is built in is sound, because every built-in name is declared once.
What is said of single built-in types is read off the graph itself; the policy plays no part in it.
-/

namespace XsdTypes.Graph

variable {g g' : Graph}

theorem sound_empty (policy : RepeatPolicy) : ({ policy } : Graph).Sound where
  registry :=
    { uri_inj := fun i _ hi => absurd hi (Nat.not_lt_zero i)
      root_lt := fun i hi => absurd hi (Nat.not_lt_zero i)
      root_parent := fun i hi => absurd hi (Nat.not_lt_zero i)
      root_ns := fun i hi => absurd hi (Nat.not_lt_zero i)
      ns_lt := fun s hs => absurd hs (Nat.not_lt_zero s)
      root_of_parent := fun s hs => absurd hs (Nat.not_lt_zero s)
      parent_lt := fun s _ hs => absurd hs (Nat.not_lt_zero s)
      parent_ns := fun s _ hs => absurd hs (Nat.not_lt_zero s) }
  declared :=
    { indexed := fun _ _ => rfl
      entry := fun _ _ hd => nomatch hd
      nodup := fun _ => List.nodup_nil
      once := fun _ _ _ => Nat.zero_le _ }
  tree :=
    { scope_lt := fun n hn => absurd hn (Nat.not_lt_zero n)
      own_lt := fun n _ hn => absurd hn (Nat.not_lt_zero n)
      own_parent := fun n _ hn => absurd hn (Nat.not_lt_zero n)
      own_inj := fun n _ _ hn => absurd hn (Nat.not_lt_zero n)
      parent_lt := fun n _ hn => absurd hn (Nat.not_lt_zero n)
      parent_scope := fun n _ hn => absurd hn (Nat.not_lt_zero n)
      parent_contains := fun n _ hn => absurd hn (Nat.not_lt_zero n)
      child_lt := fun p hp => absurd hp (Nat.not_lt_zero p)
      mem_children := fun p _ hp => absurd hp (Nat.not_lt_zero p)
      children_sorted := fun p hp => absurd hp (Nat.not_lt_zero p) }

theorem modifyNode_eq_self {id : NodeId} {f : Node → Node} (h : f (g.nodeAt id) = g.nodeAt id) :
    g.modifyNode id f = g := by
  have hnodes : g.nodes.modify id f = g.nodes := by
    refine Array.ext (by simp) fun i hi hi' => ?_
    rw [Array.getElem_modify]
    split
    · rename_i hid
      subst hid
      simpa [nodeAt, Array.getD, hi'] using h
    · rfl
  rw [modifyNode, hnodes]

/-- The node of something built in. -/
def builtinNode (g : Graph) (ns : NamespaceId) (name : QName) (tag : Tag) (payload : Payload) :
    Node where
  tag := tag
  payload := payload
  scope := (g.namespaceAt ns).root
  position := ⟨0, 0, 0⟩
  name := some name
  resolved := true

section AddBuiltin

variable {space : SymbolSpace} {occurs : Occurrence} {ns : NamespaceId} {name : QName} {tag : Tag}
  {payload : Payload}

/-- Something built in is declared like everything else. -/
theorem declare_addBuiltin (hg : g.Sound) (hns : ns < g.namespaces.size) (hredefined : g.redefined = [])
    (hfree : ∀ d ∈ g.globals ns, d.symbol? ≠ some (space, name)) :
    (g.addNode (g.builtinNode ns name tag payload)).1.declare
      ⟨some name, space, g.nodes.size, occurs⟩ (g.namespaceAt ns).root =
        .ok (addBuiltin space occurs ns g name tag payload) := by
  set node := g.builtinNode ns name tag payload with hnode
  set root := (g.namespaceAt ns).root with hroot
  set d : Declaration := ⟨some name, space, g.nodes.size, occurs⟩ with hd
  have hlt : root < g.scopes.size := hg.registry.root_lt ns hns
  have hfind : (g.scopeAt root).find? (space, name) = none := by
    rw [(hg.declared.indexed root).find?_eq, List.find?_eq_none]
    intro e he
    simpa using hfree e he
  have hinsert : ∀ repeats, (g.scopeAt root).insert d repeats = .ok ((g.scopeAt root).append d) := by
    intro repeats
    unfold Scope.insert
    have hbind : d.symbol?.bind (g.scopeAt root).find? = none := hfind
    rw [hbind]
    cases repeats <;> rfl
  have hself : ((g.addNode node).1.modifyScope root fun _ => (g.scopeAt root).append d).modifyNode
      d.node (fun n => { n with name := d.name }) =
        (g.addNode node).1.modifyScope root fun _ => (g.scopeAt root).append d := by
    refine modifyNode_eq_self ?_
    rw [nodeAt_modifyScope, hd, nodeAt_addNode_self]
    rfl
  have hconst := modifyScope_const (g := (g.addNode node).1) (f := fun s => s.append d) hlt
  unfold declare
  simp only [hd, Declaration.symbol?, Option.map_some, addNode_redefined, hredefined, List.contains_nil,
    Bool.and_false, if_neg Bool.false_ne_true]
  rw [scopeAt_addNode, ← hd, hinsert]
  simp only
  rw [hself, addBuiltin]
  exact congrArg Except.ok hconst.symm

theorem Sound.addBuiltin (hg : g.Sound) (hns : ns < g.namespaces.size) (hredefined : g.redefined = [])
    (hfree : ∀ d ∈ g.globals ns, d.symbol? ≠ some (space, name)) (hfits : space.fits tag)
    (huri : name.uri = (g.namespaceAt ns).uri) :
    (Graph.addBuiltin space occurs ns g name tag payload).Sound := by
  have hroot := hg.registry.root_lt ns hns
  have hadded : (g.addNode (g.builtinNode ns name tag payload)).1.Sound :=
    hg.addNode rfl rfl rfl hroot
  refine hadded.declare (declare_addBuiltin hg hns hredefined hfree)
    ((hg.declared.undeclared (Nat.le_refl _)).of_scopes rfl) (Nat.lt_succ_self _ |>.trans_eq ?_) ?_ ?_ ?_
  · simp
  · rw [nodeAt_addNode_self]
    rfl
  · rw [nodeAt_addNode_self]
    exact hfits
  · intro _ q hq
    obtain rfl : name = q := Option.some.inj hq
    rw [scopeAt_addNode, namespaceAt_addNode, hg.registry.root_ns ns hns]
    exact ⟨hg.registry.root_parent ns hns, huri⟩

/-- The names that have been added to a namespace of `g₀`, in order. -/
structure Builtins (g₀ : Graph) (ns : NamespaceId) (space : SymbolSpace) (names : List QName)
    (g : Graph) : Prop where
  sound : g.Sound
  redefined : g.redefined = []
  namespaces : g.namespaces = g₀.namespaces
  symbols : (g.globals ns).map Declaration.symbol? = names.map fun name => some (space, name)

namespace Builtins

variable {g₀ : Graph} {names : List QName}

theorem globals_addBuiltin (hg : g.Sound) (hns : ns < g.namespaces.size) :
    (addBuiltin space occurs ns g name tag payload).globals ns =
      g.globals ns ++ [⟨some name, space, g.nodes.size, occurs⟩] := by
  have hroot : (addBuiltin space occurs ns g name tag payload).globals ns =
      (((g.addNode (g.builtinNode ns name tag payload)).1.modifyScope (g.namespaceAt ns).root
        fun s => s.append ⟨some name, space, g.nodes.size, occurs⟩).scopeAt
          (g.namespaceAt ns).root).entries := rfl
  have hlt : (g.namespaceAt ns).root <
      (g.addNode (g.builtinNode ns name tag payload)).1.scopes.size := hg.registry.root_lt ns hns
  rw [hroot, scopeAt_modifyScope_self _ _ _ hlt]
  rfl

theorem step (h : Builtins g₀ ns space names g) (hns : ns < g₀.namespaces.size)
    (hnew : name ∉ names) (hfits : space.fits tag) (huri : name.uri = (g₀.namespaceAt ns).uri) :
    Builtins g₀ ns space (names ++ [name]) (addBuiltin space occurs ns g name tag payload) := by
  have hns' : ns < g.namespaces.size := by rw [h.namespaces]; exact hns
  have hfree : ∀ d ∈ g.globals ns, d.symbol? ≠ some (space, name) := by
    intro d hd he
    have hmem : some (space, name) ∈ names.map fun name => some (space, name) := by
      rw [← h.symbols, ← he]
      exact List.mem_map_of_mem hd
    obtain ⟨name', hname', heq⟩ := List.mem_map.mp hmem
    obtain rfl : name' = name := by simpa using heq
    exact hnew hname'
  refine
    { sound := h.sound.addBuiltin hns' h.redefined hfree hfits ?_
      redefined := h.redefined
      namespaces := h.namespaces
      symbols := ?_ }
  · rw [namespaceAt, h.namespaces]
    exact huri
  · rw [globals_addBuiltin h.sound hns', List.map_append, List.map_append, h.symbols]
    rfl

theorem foldl {α : Type} (occurs : Occurrence) (tag : Tag) (items : List α) (nameOf : α → QName)
    (payloadOf : α → Payload) (h : Builtins g₀ ns space names g) (hns : ns < g₀.namespaces.size)
    (hnodup : (names ++ items.map nameOf).Nodup) (hfits : space.fits tag)
    (huri : ∀ a, (nameOf a).uri = (g₀.namespaceAt ns).uri) :
    Builtins g₀ ns space (names ++ items.map nameOf)
      (items.foldl (fun g a => addBuiltin space occurs ns g (nameOf a) tag (payloadOf a)) g) := by
  induction items generalizing names g with
  | nil => simpa using h
  | cons a items ih =>
    have happend : names ++ (a :: items).map nameOf = (names ++ [nameOf a]) ++ items.map nameOf := by
      simp
    rw [happend] at hnodup ⊢
    refine ih (h.step hns (fun hmem => ?_) hfits (huri a)) hnodup
    have hdisjoint := (List.nodup_append.mp (List.nodup_append.mp hnodup).1).2.2
    exact hdisjoint _ hmem _ (List.mem_singleton.mpr rfl) rfl

end Builtins

end AddBuiltin

/-- A namespace that is new has no declarations. -/
theorem builtins_register (h : g.Sound) (hredefined : g.redefined = []) {uri : String}
    (hnone : g.namespaceId? uri = none) (space : SymbolSpace) :
    Builtins (g.register uri).1 (g.register uri).2 space [] (g.register uri).1 := by
  have hsound := h.register uri
  rcases register_cases g uri with ⟨_, hsome⟩ | ⟨_, hid, heq⟩
  · rw [hnone] at hsome
    cases hsome
  refine ⟨hsound, ?_, rfl, ?_⟩
  · rw [heq]
    exact hredefined
  · have hroot : ((g.register uri).1.namespaceAt g.namespaces.size).root = g.scopes.size := by
      rw [heq, namespaceAt, namespaces_push_getD, if_pos rfl]
    have hempty : ((g.register uri).1.scopeAt g.scopes.size).entries = [] := by
      rw [heq, scopeAt, getD_push, if_pos rfl]
    rw [hid, globals, rootScope, hroot, hempty]
    rfl

theorem register_uri (g : Graph) (uri : String) :
    ((g.register uri).1.namespaceAt (g.register uri).2).uri = uri := by
  rcases register_cases g uri with ⟨heq, hsome⟩ | ⟨_, hid, heq⟩
  · rw [heq]
    exact (namespaceId?_eq_some hsome).2
  · rw [hid, heq, namespaceAt, namespaces_push_getD, if_pos rfl]

/-! ## The built-in types and attributes -/

/-- Adds built-in types to a namespace. -/
def addTypes (ns : NamespaceId) (types : List (String × Primitive)) (g : Graph) : Graph :=
  types.foldl
    (fun g (localName, primitive) =>
      addBuiltin .type .once ns g (QName.schema localName) .builtin (.builtin primitive)) g

/-- Adds built-in attributes of a type to a namespace. -/
def addAttributes (ns : NamespaceId) (type : Option NodeId) (names : List String) (g : Graph) :
    Graph :=
  names.foldl
    (fun g localName =>
      addBuiltin .attr .atMostOnce ns g ⟨QName.xmlUri, localName⟩ .attr
        (.attr { isGlobal := true, typeNode := type } false)) g

/-- The graph with the built-in types. -/
def initialTypes (policy : RepeatPolicy) : Graph :=
  addTypes (Graph.register { policy } QName.schemaUri).2 Builtin.types
    (Graph.register { policy } QName.schemaUri).1

/-- The graph with the built-in types and the attributes of the `xml` namespace. -/
def initialAttributes (policy : RepeatPolicy) : Graph :=
  addAttributes ((initialTypes policy).register QName.xmlUri).2
    ((initialTypes policy).builtin? "string") Builtin.xmlAttributes
    ((initialTypes policy).register QName.xmlUri).1

theorem initial_eq (policy : RepeatPolicy) :
    initial policy = (initialAttributes policy).loadAll := by
  unfold initial
  rfl

theorem Sound.loadAll (h : g.Sound) : g.loadAll.Sound :=
  h.of_namespaces rfl rfl (Array.size_map ..) (getD_map _ fun _ => rfl) (getD_map _ fun _ => rfl) rfl

theorem Builtins.addTypes {g₀ : Graph} {ns : NamespaceId} {types : List (String × Primitive)}
    (h : Builtins g₀ ns .type [] g) (hns : ns < g₀.namespaces.size)
    (hnodup : (types.map fun t => QName.schema t.1).Nodup)
    (huri : (g₀.namespaceAt ns).uri = QName.schemaUri) :
    Builtins g₀ ns .type (types.map fun t => QName.schema t.1) (Graph.addTypes ns types g) :=
  h.foldl .once .builtin types (fun t => QName.schema t.1) (fun t => .builtin t.2) hns hnodup rfl
    fun _ => huri.symm

theorem Builtins.addAttributes {g₀ : Graph} {ns : NamespaceId} {names : List String}
    (h : Builtins g₀ ns .attr [] g) (type : Option NodeId) (hns : ns < g₀.namespaces.size)
    (hnodup : (names.map fun name => (⟨QName.xmlUri, name⟩ : QName)).Nodup)
    (huri : (g₀.namespaceAt ns).uri = QName.xmlUri) :
    Builtins g₀ ns .attr (names.map fun name => ⟨QName.xmlUri, name⟩)
      (Graph.addAttributes ns type names g) :=
  h.foldl .atMostOnce .attr names (fun name => ⟨QName.xmlUri, name⟩)
    (fun _ => .attr { isGlobal := true, typeNode := type } false) hns hnodup rfl fun _ => huri.symm

theorem namespaceId?_empty (policy : RepeatPolicy) :
    ({ policy } : Graph).namespaceId? QName.schemaUri = none := rfl

theorem builtins_initialTypes (policy : RepeatPolicy) :
    Builtins (Graph.register { policy } QName.schemaUri).1
      (Graph.register { policy } QName.schemaUri).2 .type
      (Builtin.types.map fun t => QName.schema t.1) (initialTypes policy) :=
  (builtins_register (sound_empty policy) rfl (namespaceId?_empty policy) .type).addTypes
    (register_lt _ _) (by decide +kernel) (register_uri _ _)

theorem builtins_initialAttributes (policy : RepeatPolicy) :
    Builtins ((initialTypes policy).register QName.xmlUri).1
      ((initialTypes policy).register QName.xmlUri).2 .attr
      (Builtin.xmlAttributes.map fun name => ⟨QName.xmlUri, name⟩) (initialAttributes policy) := by
  have htypes := builtins_initialTypes policy
  have hnone : (initialTypes policy).namespaceId? QName.xmlUri = none := by
    rcases register_cases { policy } QName.schemaUri with ⟨_, hsome⟩ | ⟨_, _, heq⟩
    · rw [namespaceId?_empty] at hsome
      cases hsome
    · rw [namespaceId?, htypes.namespaces, heq]
      rfl
  exact (builtins_register htypes.sound htypes.redefined hnone .attr).addAttributes _
    (register_lt _ _) (by decide +kernel) (register_uri _ _)

theorem initial_sound (policy : RepeatPolicy) : (initial policy).Sound := by
  rw [initial_eq]
  exact (builtins_initialAttributes policy).sound.loadAll

theorem initial_redefined (policy : RepeatPolicy) : (initial policy).redefined = [] := by
  rw [initial_eq]
  exact (builtins_initialAttributes policy).redefined

/-! ## What is built in -/

section Policy

/-- The graph with another policy. -/
def withPolicy (policy : RepeatPolicy) (g : Graph) : Graph := { g with policy }

variable (policy : RepeatPolicy) (g : Graph)

@[simp] theorem withPolicy_nodes : (g.withPolicy policy).nodes = g.nodes := rfl

@[simp] theorem withPolicy_scopes : (g.withPolicy policy).scopes = g.scopes := rfl

@[simp] theorem withPolicy_namespaces : (g.withPolicy policy).namespaces = g.namespaces := rfl

@[simp] theorem withPolicy_documents : (g.withPolicy policy).documents = g.documents := rfl

@[simp] theorem withPolicy_policy : (g.withPolicy policy).policy = policy := rfl

theorem nodeAt_withPolicy (n : NodeId) : (g.withPolicy policy).nodeAt n = g.nodeAt n := rfl

theorem scopeAt_withPolicy (s : ScopeId) : (g.withPolicy policy).scopeAt s = g.scopeAt s := rfl

theorem namespaceAt_withPolicy (ns : NamespaceId) :
    (g.withPolicy policy).namespaceAt ns = g.namespaceAt ns := rfl

theorem globals_withPolicy (ns : NamespaceId) :
    (g.withPolicy policy).globals ns = g.globals ns := rfl

theorem builtin?_withPolicy (localName : String) :
    (g.withPolicy policy).builtin? localName = g.builtin? localName := rfl

theorem register_withPolicy (uri : String) :
    (g.withPolicy policy).register uri =
      ((g.register uri).1.withPolicy policy, (g.register uri).2) := by
  have hid : (g.withPolicy policy).namespaceId? uri = g.namespaceId? uri := rfl
  unfold register
  rw [hid]
  split <;> rfl

theorem addTypes_withPolicy (ns : NamespaceId) (types : List (String × Primitive)) :
    addTypes ns types (g.withPolicy policy) = (addTypes ns types g).withPolicy policy := by
  induction types generalizing g with
  | nil => rfl
  | cons type types ih =>
    exact ih (addBuiltin .type .once ns g (QName.schema type.1) .builtin (.builtin type.2))

theorem addAttributes_withPolicy (ns : NamespaceId) (type : Option NodeId) (names : List String) :
    addAttributes ns type names (g.withPolicy policy) =
      (addAttributes ns type names g).withPolicy policy := by
  induction names generalizing g with
  | nil => rfl
  | cons name names ih =>
    exact ih (addBuiltin .attr .atMostOnce ns g ⟨QName.xmlUri, name⟩ .attr
      (.attr { isGlobal := true, typeNode := type } false))

theorem initialTypes_policy : initialTypes policy = (initialTypes .standard).withPolicy policy := by
  have hempty : ({ policy } : Graph) = ({ policy := .standard } : Graph).withPolicy policy := rfl
  unfold initialTypes
  rw [hempty, register_withPolicy, addTypes_withPolicy]

theorem initialAttributes_policy :
    initialAttributes policy = (initialAttributes .standard).withPolicy policy := by
  unfold initialAttributes
  rw [initialTypes_policy, builtin?_withPolicy, register_withPolicy, addAttributes_withPolicy]

theorem loadAll_withPolicy : (g.withPolicy policy).loadAll = g.loadAll.withPolicy policy := rfl

/-- The policy plays no part in what is built in. -/
theorem initial_policy : initial policy = (initial .standard).withPolicy policy := by
  rw [initial_eq, initialAttributes_policy, loadAll_withPolicy, initial_eq]

/-- Whether a node is a built-in type, or an attribute of such a type. -/
def isBuiltinNode (g : Graph) (n : Node) : Bool :=
  n.resolved && n.parent.isNone && n.ownScope.isNone &&
    match n.payload with
    | .builtin _ => n.tag = .builtin
    | .attr a _ =>
      n.tag = .attr && a.target.isNone &&
        match a.typeNode with
        | some type => ((g.nodeAt type).payload matches .builtin _)
        | none => false
    | _ => false

theorem isBuiltinNode_withPolicy (n : Node) :
    (g.withPolicy policy).isBuiltinNode n = g.isBuiltinNode n := rfl

theorem isBuiltinNode_cases {g : Graph} {n : Node} (h : g.isBuiltinNode n = true) :
    (n.tag = .builtin ∧ ∃ primitive, n.payload = .builtin primitive) ∨
      (n.tag = .attr ∧ ∃ a prohibited type primitive, n.payload = .attr a prohibited ∧
        a.target = none ∧ a.typeNode = some type ∧
        (g.nodeAt type).payload = .builtin primitive) := by
  unfold isBuiltinNode at h
  rw [Bool.and_eq_true] at h
  obtain ⟨_, h⟩ := h
  split at h
  · rename_i primitive hpayload
    exact Or.inl ⟨of_decide_eq_true h, primitive, hpayload⟩
  · rename_i a prohibited hpayload
    simp only [Bool.and_eq_true, decide_eq_true_eq, Option.isNone_iff_eq_none] at h
    obtain ⟨⟨htag, htarget⟩, h⟩ := h
    split at h
    · rename_i type htype
      split at h
      · rename_i primitive hbuiltin
        exact Or.inr ⟨htag, a, prohibited, type, primitive, hpayload, htarget, htype, hbuiltin⟩
      · cases h
    · cases h
  · cases h

/-- All nodes are built in. -/
theorem initial_nodes {n : NodeId} (hn : n < (initial policy).nodes.size) :
    (initial policy).isBuiltinNode ((initial policy).nodeAt n) = true := by
  have hall : (initial .standard).nodes.all (initial .standard).isBuiltinNode = true := by
    decide +kernel
  rw [initial_policy, withPolicy_nodes] at hn
  rw [initial_policy, isBuiltinNode_withPolicy, nodeAt_withPolicy, nodeAt_eq_getElem _ hn]
  exact Array.all_eq_true.mp hall n hn

/-- The two types that stand for missing ones are built in. -/
theorem initial_symbols {localName : String} (h : localName = "anyType" ∨ localName = "anySimpleType") :
    ∃ d ∈ (initial policy).globals schemaNamespace,
      d.symbol? = some (.type, QName.schema localName) := by
  have hany : ((initial .standard).globals schemaNamespace).any (fun d =>
      d.symbol? = some (.type, QName.schema localName)) = true := by
    rcases h with rfl | rfl <;> decide +kernel
  obtain ⟨d, hd, hsymbol⟩ := List.any_eq_true.mp hany
  rw [initial_policy, globals_withPolicy]
  exact ⟨d, hd, by simpa using hsymbol⟩

theorem initial_schemaNamespace_lt : schemaNamespace < (initial policy).namespaces.size := by
  rw [initial_policy, withPolicy_namespaces]
  decide +kernel

theorem initial_documents : (initial policy).documents.isEmpty := by
  rw [initial_policy, withPolicy_documents]
  decide +kernel

theorem flat_initial : (initial policy).Flat where
  sound := initial_sound policy
  flat s hs := by
    have hall : (initial .standard).scopes.all (fun scope => scope.parent.isNone) = true := by
      decide +kernel
    rw [initial_policy, withPolicy_scopes] at hs
    rw [initial_policy, scopeAt_withPolicy, scopeAt_eq_getElem _ hs]
    exact Option.isNone_iff_eq_none.mp (Array.all_eq_true.mp hall s hs)

/-- Nothing has been read yet. -/
theorem read_initial : (initial policy).Read (initial policy) where
  base := flat_initial policy
  sound := initial_sound policy
  ext := Extends.refl _
  schemaNamespace_lt := initial_schemaNamespace_lt policy
  accounted _ hn hlt := absurd hlt (Nat.not_lt.mpr hn)
  kept _ _ := rfl
  pending _ hn hlt := absurd hlt (Nat.not_lt.mpr hn)

end Policy

end XsdTypes.Graph
