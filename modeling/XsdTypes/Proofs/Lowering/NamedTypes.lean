import XsdTypes.Lowering.Export
import XsdTypes.Proofs.Schema.Loaded

/-!
# The types of a namespace

The named types that are exported with a namespace are the types that its root scope declares. A type
that a name has been bound to is built in, has no name, or is one of the named types of the namespace
it stands in.
-/

namespace XsdTypes

namespace Graph

/-- Whether a declaration is that of a complex or a simple type. -/
def isTypeDeclaration (g : Graph) (d : Declaration) : Bool :=
  d.space = .type && [Tag.complexType, .simpleType].contains (g.nodeAt d.node).tag

/-- The declarations of complex and simple types in a namespace, in order. -/
def typeDeclarations (g : Graph) (ns : NamespaceId) : List Declaration :=
  (g.globals ns).filter g.isTypeDeclaration

/-- The declarations of elements in a namespace, in order. -/
def elementDeclarations (g : Graph) (ns : NamespaceId) : List Declaration :=
  (g.globals ns).filter fun d => d.space = .element

variable {g : Graph} {policy : RepeatPolicy} {ns : NamespaceId} {d : Declaration} {t : NodeId}

theorem isTypeDeclaration_iff : g.isTypeDeclaration d = true ↔ d.space = .type ∧
    ((g.nodeAt d.node).tag = .complexType ∨ (g.nodeAt d.node).tag = .simpleType) := by
  simp [isTypeDeclaration]

/-- Where the type of a declaration stands, and that it has a name. -/
theorem Loaded.typeDeclaration (h : g.Loaded policy) (hns : ns < g.namespaces.size)
    (hd : d ∈ g.typeDeclarations ns) :
    d.node < g.nodes.size ∧ (g.scopeAt (g.nodeAt d.node).scope).ns = ns ∧
      (g.nodeAt d.node).name = d.name ∧ d.name.isSome := by
  obtain ⟨hmem, htype⟩ := List.mem_filter.mp hd
  obtain ⟨hspace, htag⟩ := isTypeDeclaration_iff.mp htype
  have hdecl := h.sound.declared.entry _ d hmem
  refine ⟨hdecl.node_lt, ?_, hdecl.name, ?_⟩
  · rw [hdecl.scope]
    exact h.sound.registry.root_ns ns hns
  · refine h.global_type_named (h.sound.registry.root_parent ns hns) hmem hspace ?_
    refine h.new_of_tag ?_ ?_ <;> rcases htag with htag | htag <;> rw [htag] <;> nofun

theorem Loaded.typeDeclarations_nodup (h : g.Loaded policy) (ns : NamespaceId) :
    ((g.typeDeclarations ns).map Declaration.node).Nodup :=
  (h.sound.declared.nodup _).sublist (List.filter_sublist.map _)

theorem Loaded.namedTypes_eq (h : g.Loaded policy) (hns : ns < g.namespaces.size) :
    Lowering.namedTypes g ns =
      (g.typeDeclarations ns).map fun d => (d.node, Lowering.localName d) := by
  have hnamed : ∀ d ∈ g.globals ns, g.isTypeDeclaration d = true → d.name.isSome :=
    fun d hd htype => (h.typeDeclaration hns (List.mem_filter.mpr ⟨hd, htype⟩)).2.2.2
  unfold Lowering.namedTypes typeDeclarations
  generalize g.globals ns = entries at hnamed
  induction entries with
  | nil => rfl
  | cons d entries ih =>
    have hrest := ih fun d hd => hnamed d (List.mem_cons_of_mem _ hd)
    by_cases htype : g.isTypeDeclaration d = true
    · obtain ⟨q, hq⟩ := Option.isSome_iff_exists.mp (hnamed d List.mem_cons_self htype)
      have hcond : d.space = .type ∧
          [Tag.complexType, .simpleType].contains (g.nodeAt d.node).tag = true := by
        simpa [isTypeDeclaration] using htype
      rw [List.filterMap_cons, if_pos hcond, List.filter_cons_of_pos htype, hrest, hq, List.map_cons,
        Lowering.localName, hq]
      rfl
    · have hcond : ¬ (d.space = .type ∧
          [Tag.complexType, .simpleType].contains (g.nodeAt d.node).tag = true) := by
        simpa [isTypeDeclaration] using htype
      rw [List.filterMap_cons, if_neg hcond, List.filter_cons_of_neg htype, hrest]

/-- A built-in type holds the primitive type it stands for. -/
theorem Loaded.payload_of_builtin (h : g.Loaded policy) (ht : t < g.nodes.size)
    (htag : (g.nodeAt t).tag = .builtin) : ∃ primitive, (g.nodeAt t).payload = .builtin primitive := by
  rcases Nat.lt_or_ge t (initial policy).nodes.size with hold | hnew
  · have hwritten := written_eq_of_core (h.ext.core t hold)
    rw [h.ext.tag hold] at htag
    rcases isBuiltinNode_cases (initial_nodes policy hold) with ⟨_, primitive, hpayload⟩ | ⟨hattr, _⟩
    · rw [hpayload] at hwritten
      refine ⟨primitive, ?_⟩
      cases hp : (g.nodeAt t).payload <;> rw [hp] at hwritten <;> cases hwritten
      rfl
    · rw [hattr] at htag
      cases htag
  · exact absurd htag (h.tag_ne_builtin hnew ht)

/-- The types that names are bound to. -/
theorem Loaded.isType_cases (h : g.Loaded policy) (ht : g.IsType t) :
    (∃ primitive, (g.nodeAt t).payload = .builtin primitive) ∨ (g.nodeAt t).name = none ∨
      ((g.scopeAt (g.nodeAt t).scope).ns < g.namespaces.size ∧
        ∃ d ∈ g.typeDeclarations (g.scopeAt (g.nodeAt t).scope).ns, d.node = t) := by
  obtain ⟨hlt, hfits, hbuiltin | hname | ⟨d, hd, rfl, hspace⟩⟩ := ht
  · exact Or.inl (h.payload_of_builtin hlt hbuiltin)
  · exact Or.inr (Or.inl hname)
  by_cases htag : (g.nodeAt d.node).tag = .builtin
  · exact Or.inl (h.payload_of_builtin hlt htag)
  cases hname : d.name with
  | none => exact Or.inr (Or.inl ((h.sound.declared.entry _ d hd).name.trans hname))
  | some q =>
    have hs := h.sound.tree.scope_lt d.node hlt
    obtain ⟨hroot, _⟩ := (h.sound.declared.entry _ d hd).global hspace q hname
    refine Or.inr (Or.inr ⟨h.sound.registry.ns_lt _ hs, d, List.mem_filter.mpr ⟨?_, ?_⟩, rfl⟩)
    · rw [globals, rootScope, h.sound.registry.root_of_parent _ hs hroot]
      exact hd
    · refine isTypeDeclaration_iff.mpr ⟨hspace, ?_⟩
      cases hkind : (g.nodeAt d.node).tag <;> rw [hkind] at hfits htag <;>
        first | exact Or.inl rfl | exact Or.inr rfl | exact absurd rfl htag | cases hfits

end Graph

end XsdTypes
