import XsdTypes.Proofs.Lowering.Types

/-!
# Exporting namespaces

An export succeeds, whatever has been exported before. All types of a namespace have their
declarations before one of them is lowered, so that a reference into a namespace whose export has
begun finds what it refers to. Each reference that goes deeper gives a declaration to a node without
one or begins a namespace, and there are only so many of both.
-/

namespace XsdTypes.Lowering

open Target

variable {g : Graph} {policy : RepeatPolicy} {options : ExportOptions} {fuel : Nat} {refer : Refer}
  {owner : ModuleId} {ns : NamespaceId} {t t' t'' : Target}

/-! ## Reserving declarations -/

/-- The types in `done` have their declarations. The export of the namespace began at `t`. -/
structure Reserving (g : Graph) (ns : NamespaceId) (t : Target) (done : List Declaration)
    (reserved : List (NodeId × TypeId)) (t' : Target) : Prop where
  kept : t'.Kept g
  unchanged : Extends (fun _ => False) t t'
  nodes : reserved.map Prod.fst = done.map Declaration.node
  listed : (t'.model.moduleAt t.model.modules.size).types = reserved.map Prod.snd
  types : ∀ e, e ∈ t'.types ↔ e ∈ reserved ∨ e ∈ t.types
  new : ∀ e ∈ reserved, t.model.types.size ≤ e.2
  exported : t'.exported = ns :: t.exported
  modules : t'.modules = (ns, t.model.modules.size) :: t.modules

theorem Reserving.begin (h : t.Kept g) (hns : ns < g.namespaces.size) (hnew : ns ∉ t.exported) :
    Reserving g ns t [] [] (t.begin g ns) where
  kept := h.begin hns hnew
  unchanged := Extends.begin t g ns _
  nodes := rfl
  listed := (Model.moduleAt_addModule_self t.model _ _).2
  types _ := ⟨Or.inr, fun h => h.resolve_left nofun⟩
  new _ h := nomatch h
  exported := rfl
  modules := rfl

theorem Reserving.owner_lt {done : List Declaration} {reserved : List (NodeId × TypeId)}
    (h : Reserving g ns t done reserved t') : t.model.modules.size < t'.model.modules.size :=
  h.kept.module_lt (ns, t.model.modules.size) (by rw [h.modules]; exact List.mem_cons_self)

/-- A type whose namespace has not been begun has no declaration. -/
theorem Reserving.free {done : List Declaration} {reserved : List (NodeId × TypeId)}
    (h : Reserving g ns t done reserved t') (hkept : t.Kept g) (hnew : ns ∉ t.exported)
    {d : Declaration} (hd : d.node ∉ done.map Declaration.node)
    (hname : (g.nodeAt d.node).name.isSome) (hns : (g.scopeAt (g.nodeAt d.node).scope).ns = ns) :
    d.node ∉ t'.types.map Prod.fst := by
  intro hmem
  obtain ⟨e, he, heq⟩ := List.mem_map.mp hmem
  rcases (h.types e).mp he with hreserved | hold
  · exact hd (by rw [← h.nodes, ← heq]; exact List.mem_map_of_mem hreserved)
  · have hbegun := hkept.named e hold (by rw [heq]; exact hname)
    rw [heq, hns] at hbegun
    exact hnew hbegun

theorem Reserving.step {done : List Declaration} {reserved : List (NodeId × TypeId)}
    (h : Reserving g ns t done reserved t') {d : Declaration} (hd : d ∈ g.typeDeclarations ns)
    (hlt : d.node < g.nodes.size) (hns : (g.scopeAt (g.nodeAt d.node).scope).ns = ns) (hfree : d.node ∉ t'.types.map Prod.fst)
    {decl : TypeDecl} (howner : decl.owner = t.model.modules.size)
    (hnamed : decl.isAnonymous = false) (hrefs : decl.refs = []) :
    Reserving g ns t (done ++ [d]) (reserved ++ [(d.node, t'.model.types.size)])
      (t'.addTypeOf d.node decl).1 where
  kept := by
    have hoccupied : t'.Occupied g decl.owner :=
      ⟨ns, by rw [h.modules, howner]; exact List.mem_cons_self, .inl (List.ne_nil_of_mem hd)⟩
    refine h.kept.addTypeOf (howner ▸ h.owner_lt) hoccupied (by simp [hrefs]) hlt hfree fun _ => ?_
    rw [hns, h.exported]
    exact List.mem_cons_self
  unchanged := h.unchanged.addTypeOf d.node (Or.inr (Nat.le_of_eq howner.symm))
  nodes := by rw [List.map_append, List.map_append, h.nodes]; rfl
  listed := by
    change ((t'.model.addType decl).1.moduleAt t.model.modules.size).types = _
    rw [Model.moduleAt_addType, if_pos ⟨hnamed, howner.symm, h.owner_lt⟩, List.map_append]
    simp only [h.listed]
    rfl
  types e := by
    change e ∈ (d.node, t'.model.types.size) :: t'.types ↔ _
    rw [List.mem_cons, h.types, List.mem_append, List.mem_singleton]
    tauto
  new e he := by
    rcases List.mem_append.mp he with hold | hnew
    · exact h.new e hold
    · rw [List.mem_singleton.mp hnew]
      exact h.unchanged.types_le
  exported := h.exported
  modules := h.modules

theorem reserve_succeeds (h : g.Loaded policy) (hns : ns < g.namespaces.size) (hkept : t.Kept g)
    (hnew : ns ∉ t.exported) :
    Succeeds (reserve g t.model.modules.size (namedTypes g ns)) (t.begin g ns)
      (Reserving g ns t (g.typeDeclarations ns)) := by
  have hnodup := h.typeDeclarations_nodup ns
  rw [h.namedTypes_eq hns, reserve, List.mapM_map]
  refine Succeeds.mapM (I := Reserving g ns t) ?_ (Reserving.begin hkept hns hnew)
  intro done d rest reserved t' hl hI
  have hmem : d ∈ g.typeDeclarations ns := by
    rw [hl]
    exact List.mem_append_right _ List.mem_cons_self
  obtain ⟨hlt, hscope, hname, hsome⟩ := h.typeDeclaration hns hmem
  have hd : d.node ∉ done.map Declaration.node := by
    rw [hl, List.map_append, List.map_cons, List.nodup_append] at hnodup
    exact fun hmem => hnodup.2.2 _ hmem _ List.mem_cons_self rfl
  have hfree := hI.free hkept hnew hd (by rw [hname]; exact hsome) hscope
  exact .get (.set (.pure (hI.step hmem hlt hscope hfree rfl rfl rfl)))

/-- After all types of the namespace have their declarations, the target is sound again. -/
theorem Reserving.sound {reserved : List (NodeId × TypeId)}
    (h : Reserving g ns t (g.typeDeclarations ns) reserved t') (hsound : t.Sound g) :
    t'.Sound g where
  toKept := h.kept
  reserved ns' hns' d hd := by
    rw [h.exported] at hns'
    rcases List.mem_cons.mp hns' with rfl | hold
    · have hmem : d.node ∈ reserved.map Prod.fst := by
        rw [h.nodes]
        exact List.mem_map_of_mem hd
      obtain ⟨e, he, heq⟩ := List.mem_map.mp hmem
      exact heq ▸ List.mem_map_of_mem ((h.types e).mpr (Or.inl he))
    · exact List.map_subset _ h.unchanged.types (hsound.reserved ns' hold d hd)

/-! ## Lowering what has been reserved -/

/-- Lowering the types of a list changes their declarations, and no others that are there. -/
theorem Refers.lowerAll (h : g.Loaded policy) (hrefer : Refers g options fuel refer)
    {reserved : List (NodeId × TypeId)} (hids : (reserved.map Prod.snd).Nodup)
    (hlt : ∀ e ∈ reserved, e.2 < t.model.types.size) (hready : Ready g fuel owner t) :
    Succeeds (reserved.forM fun (node, id) => Lowering.lowerType refer g node id owner) t fun _ t' =>
      Next g options (· ∈ reserved.map Prod.snd) t t' ∧
        ∀ e ∈ reserved, IsLowered g e.1 (t'.model.typeAt e.2) := by
  refine Succeeds.forM (I := fun (done : List (NodeId × TypeId)) t' =>
    Next g options (· ∈ reserved.map Prod.snd) t t' ∧
      ∀ e ∈ done, IsLowered g e.1 (t'.model.typeAt e.2)) ?_ ⟨Next.refl hready.sound, nofun⟩
  rintro done ⟨node, id⟩ rest t' hl ⟨hnext, hdone⟩
  have hmem : ∀ e ∈ done ++ [(node, id)], e ∈ reserved := by
    intro e he
    rw [hl, List.append_cons]
    exact List.mem_append_left _ he
  have hid := hlt (node, id) (hmem _ (List.mem_append_right _ List.mem_cons_self))
  refine (hrefer.lowerType h node (Nat.lt_of_lt_of_le hid hnext.grows.types_le)
    (hready.next hnext)).mono ?_
  rintro _ t'' ⟨hnext', hlowered⟩
  refine ⟨⟨hnext'.sound, hnext.grows.trans hnext'.grows hnext.sound.toKept ?_⟩, fun e he => ?_⟩
  · rintro _ rfl
    exact ⟨hid, List.mem_map_of_mem (hmem _ (List.mem_append_right _ List.mem_cons_self))⟩
  · rcases List.mem_append.mp he with hold | hnew
    · have hne : e.2 ≠ id := by
        rw [hl, List.map_append, List.map_cons, List.nodup_append] at hids
        exact hids.2.2 _ (List.mem_map_of_mem hold) _ List.mem_cons_self
      rw [hnext'.grows.decl e.2 (Nat.lt_of_lt_of_le (hlt e (hmem e he)) hnext.grows.types_le) hne]
      exact hdone e hold
    · rw [List.mem_singleton.mp hnew]
      exact hlowered

/-! ## The type of whole documents -/

/-- The members of the type of whole documents. -/
theorem Refers.documentMembers (h : g.Loaded policy) (hrefer : Refers g options fuel refer)
    (ns : NamespaceId) (hready : Ready g fuel owner t) :
    Succeeds ((g.elementDeclarations ns).mapM fun d => Lowering.elementMember refer g owner ⟨d, .once⟩)
      t fun ms t' => Next g options (fun _ => False) t t' ∧
        (∀ m ∈ ms, m.type.InRange t'.model.types.size) ∧
        ms.map (fun m => (m.kind, m.xmlName)) =
          (g.elementDeclarations ns).map fun d => (.element, localName d) := by
  refine Succeeds.mapM (I := fun done (ms : List Member) t' =>
    Next g options (fun _ => False) t t' ∧ (∀ m ∈ ms, m.type.InRange t'.model.types.size) ∧
      ms.map (fun m => (m.kind, m.xmlName)) = done.map fun d => (.element, localName d)) ?_
    ⟨Next.refl hready.sound, nofun, rfl⟩
  rintro done d rest ms t' hl ⟨hnext, hrange, hnames⟩
  have hd : d ∈ g.elementDeclarations ns := by
    rw [hl]
    exact List.mem_append_right _ List.mem_cons_self
  have hspace : d.space = .element := of_decide_eq_true (List.mem_filter.mp hd).2
  have hattr : d.space ≠ .attr := by
    rw [hspace]
    nofun
  refine (hrefer.elementMember h (c := ⟨d, .once⟩) hattr (hready.next hnext)).mono ?_
  rintro m t'' ⟨hnext', hrange', houtline⟩
  refine ⟨hnext.trans hnext', fun m' hm' => ?_, ?_⟩
  · rcases List.mem_append.mp hm' with hold | hnew
    · exact (hrange m' hold).mono hnext'.grows.types_le
    · rw [List.mem_singleton.mp hnew]
      exact hrange'
  · have hkind := congrArg Outline.kind houtline
    have hname := congrArg Outline.xmlName houtline
    simp only [Member.outline, Contribution.outline, if_neg hattr] at hkind hname
    rw [List.map_append, List.map_append, hnames]
    simp only [List.map_cons, List.map_nil, hkind, hname]

/-- The step adds one declaration, or none if there are no global elements. -/
theorem Refers.addDocumentType (h : g.Loaded policy) (hrefer : Refers g options fuel refer)
    (ns : NamespaceId) (hready : Ready g fuel owner t) :
    Succeeds (addDocumentType refer options g ns owner) t fun _ t' =>
      ∃ t₁, Next g options (fun _ => False) t t₁ ∧
        ((g.elementDeclarations ns = [] ∧ t' = t₁) ∨
          (g.elementDeclarations ns ≠ [] ∧ ∃ decl, IsDocument g options ns owner decl ∧
            (∀ r ∈ decl.refs, r.InRange t₁.model.types.size) ∧ t' = (t₁.addType decl).1)) := by
  unfold Lowering.addDocumentType
  change Succeeds (if (g.elementDeclarations ns).isEmpty = true then pure () else _) t _
  split
  · rename_i hempty
    exact .pure ⟨t, Next.refl hready.sound, Or.inl ⟨List.isEmpty_iff.mp hempty, rfl⟩⟩
  · rename_i hne
    refine (hrefer.documentMembers h ns hready).bind ?_
    rintro ms t' ⟨hnext, hrange, hnames⟩
    refine .modifying ⟨t', hnext, Or.inr ⟨fun hnil => hne (by rw [hnil]; rfl), _,
      ⟨rfl, rfl, rfl, hnames⟩, fun r hr => ?_, rfl⟩⟩
    have hmem : r ∈ ms.map Member.type := by
      simpa [TypeDecl.refs, TypeDecl.ofSchema] using hr
    obtain ⟨m, hm, rfl⟩ := List.mem_map.mp hmem
    exact hrange m hm

/-! ## One namespace -/

/-- All types of the namespace have been lowered; their declarations are `ids`. The export of the
namespace began at `t`. -/
structure Filled (g : Graph) (options : ExportOptions) (ns : NamespaceId) (t : Target)
    (ids : List TypeId) (t' : Target) : Prop where
  sound : t'.Sound g
  unchanged : Extends (fun _ => False) t t'
  lowered : ∀ e ∈ t'.types, e ∈ t.types ∨ IsLowered g e.1 (t'.model.typeAt e.2)
  others : ∀ ns' ∈ t'.exported, ns' = ns ∨ ns' ∈ t.exported ∨
    t'.Complete g options t.model.types.size ns'
  module : (ns, t.model.modules.size) ∈ t'.modules
  listed : (t'.model.moduleAt t.model.modules.size).types = ids
  nodes : List.Forall₂ (fun d id => (d.node, id) ∈ t'.types) (g.typeDeclarations ns) ids

theorem Reserving.filled {reserved : List (NodeId × TypeId)}
    (h : Reserving g ns t (g.typeDeclarations ns) reserved t')
    (hnext : Next g options (· ∈ reserved.map Prod.snd) t' t'')
    (hlowered : ∀ e ∈ reserved, IsLowered g e.1 (t''.model.typeAt e.2)) :
    Filled g options ns t (reserved.map Prod.snd) t'' where
  sound := hnext.sound
  unchanged := by
    refine h.unchanged.trans hnext.grows.toExtends fun id hid hmem => ?_
    obtain ⟨e, he, rfl⟩ := List.mem_map.mp hmem
    exact absurd hid (Nat.not_lt.mpr (h.new e he))
  lowered e he := by
    rcases hnext.grows.lowered e he with hold | hdone
    · rcases (h.types e).mp hold with hreserved | hold
      · exact Or.inr (hlowered e hreserved)
      · exact Or.inl hold
    · exact Or.inr hdone
  others ns' hns' := by
    rcases hnext.grows.complete ns' hns' with hold | hdone
    · rw [h.exported] at hold
      exact (List.mem_cons.mp hold).imp_right Or.inl
    · exact Or.inr (Or.inr (hdone.mono h.unchanged.types_le))
  module := hnext.grows.modules (by rw [h.modules]; exact List.mem_cons_self)
  listed := (hnext.grows.listed _ h.owner_lt).trans h.listed
  nodes := by
    have hnodes : List.Forall₂ (fun (e : NodeId × TypeId) (d : Declaration) => e.1 = d.node)
        reserved (g.typeDeclarations ns) := by
      have heq := h.nodes
      rwa [← List.forall₂_eq_eq_eq, List.forall₂_map_left_iff, List.forall₂_map_right_iff] at heq
    have hmem : ∀ e ∈ reserved, e ∈ t''.types := fun e he =>
      hnext.grows.types ((h.types e).mpr (Or.inl he))
    rw [List.forall₂_map_right_iff]
    refine List.Forall₂.flip (((List.forall₂_and_left _ _).mpr ⟨hmem, hnodes⟩).imp ?_)
    rintro e d ⟨he, heq⟩
    change (d.node, e.2) ∈ t''.types
    rw [← heq]
    exact he

theorem Filled.next {ids : List TypeId} (h : Filled g options ns t ids t')
    (hnext : Next g options (fun _ => False) t' t'') : Filled g options ns t ids t'' where
  sound := hnext.sound
  unchanged := h.unchanged.trans hnext.grows.toExtends fun _ _ hs => hs
  lowered e he := by
    rcases hnext.grows.lowered e he with hold | hdone
    · refine (h.lowered e hold).imp_right fun hdone => ?_
      rw [hnext.grows.decl e.2 (h.sound.id_lt e hold) id]
      exact hdone
    · exact Or.inr hdone
  others ns' hns' := by
    rcases hnext.grows.complete ns' hns' with hold | hdone
    · refine (h.others ns' hold).imp_right (Or.imp_right fun hdone => ?_)
      exact hdone.extend h.sound.toKept hnext.grows.toExtends fun _ _ hs => hs
    · exact Or.inr (Or.inr (hdone.mono h.unchanged.types_le))
  module := hnext.grows.modules h.module
  listed := (hnext.grows.listed _ (h.sound.module_lt _ h.module)).trans h.listed
  nodes := h.nodes.imp fun _ _ hmem => hnext.grows.types hmem

/-- A namespace without global elements is complete. -/
theorem Filled.finish {ids : List TypeId} (h : Filled g options ns t ids t')
    (hnil : g.elementDeclarations ns = []) : Next g options (fun _ => False) t t' := by
  refine ⟨h.sound, { h.unchanged with complete := fun ns' hns' => ?_, lowered := h.lowered }⟩
  rcases h.others ns' hns' with rfl | hrest
  · exact Or.inr ⟨_, ids, [], h.module, by rw [List.append_nil]; exact h.listed, h.nodes,
      fun _ => rfl, fun hne => absurd hnil hne⟩
  · exact hrest

/-- A namespace with global elements is complete once it has the type of whole documents. -/
theorem Filled.addDocument {ids : List TypeId} (h : Filled g options ns t ids t')
    (hne : g.elementDeclarations ns ≠ []) {decl : TypeDecl}
    (hdocument : IsDocument g options ns t.model.modules.size decl)
    (hrefs : ∀ r ∈ decl.refs, r.InRange t'.model.types.size) :
    Next g options (fun _ => False) t (t'.addType decl).1 := by
  have hkept := h.sound.toKept
  have howner := hkept.module_lt _ h.module
  have hnamed : decl.isAnonymous = false := by
    unfold TypeDecl.isAnonymous
    rw [hdocument.name]
    rfl
  have hsize : (t'.addType decl).1.model.types.size = t'.model.types.size + 1 :=
    Model.addType_types_size _ _
  have hold : ∀ id, id < t'.model.types.size →
      (t'.addType decl).1.model.typeAt id = t'.model.typeAt id := by
    intro id hid
    change (t'.model.addType decl).1.typeAt id = _
    rw [Model.typeAt_addType, if_neg (Nat.ne_of_lt hid)]
  have hoccupied : t'.Occupied g decl.owner := ⟨ns, hdocument.owner ▸ h.module, .inr hne⟩
  refine ⟨{ hkept.addType (hdocument.owner ▸ howner) hoccupied hrefs with
      reserved := h.sound.reserved },
    { h.unchanged.addType (Or.inr (Nat.le_of_eq hdocument.owner.symm)) with
      complete := fun ns' hns' => ?_
      lowered := fun e he => ?_ }⟩
  · by_cases heq : ns' = ns
    · subst heq
      refine Or.inr ⟨_, ids, [t'.model.types.size], h.module, ?_, h.nodes,
        fun hnil => absurd hnil hne, fun _ => ⟨_, h.unchanged.types_le, ?_, rfl, ?_⟩⟩
      · change ((t'.model.addType decl).1.moduleAt _).types = _
        rw [Model.moduleAt_addType, if_pos ⟨hnamed, hdocument.owner.symm, howner⟩]
        simp only [h.listed]
      · rw [hsize]
        exact Nat.lt_succ_self _
      · change IsDocument g options ns' _ ((t'.model.addType decl).1.typeAt _)
        rw [Model.typeAt_addType, if_pos rfl]
        exact hdocument
    · refine ((h.others ns' hns').resolve_left heq).imp_right fun hdone => ?_
      refine hdone.congr (List.Subset.refl _) (List.Subset.refl _) (hsize ▸ Nat.le_succ _)
        (fun owner howner' => ?_) fun id _ hid => hold id hid
      -- the other namespace has another module
      change ((t'.model.addType decl).1.moduleAt owner).types = _
      rw [Model.moduleAt_addType, if_neg]
      rintro ⟨_, rfl, _⟩
      rw [hdocument.owner] at howner'
      exact heq (congrArg Prod.fst
        (List.inj_on_of_nodup_map hkept.modules_nodup howner' h.module rfl))
  · refine (h.lowered e he).imp_right fun hdone => ?_
    rw [hold e.2 (hkept.id_lt e he)]
    exact hdone

/-- A namespace without declarations is complete as soon as it has its module. -/
theorem Reserving.exportNone {reserved : List (NodeId × TypeId)}
    (h : Reserving g ns t (g.typeDeclarations ns) reserved t') (hsound : t.Sound g)
    (htypes : g.typeDeclarations ns = []) (helements : g.elementDeclarations ns = []) :
    Succeeds (do
        reserved.forM fun (node, id) => Lowering.lowerType refer g node id t.model.modules.size
        Lowering.addDocumentType refer options g ns t.model.modules.size
        return t.model.modules.size) t' fun m t'' =>
      Next g options (fun _ => False) t t'' ∧ (ns, m) ∈ t''.modules := by
  have hreserved : reserved = [] := by
    have hnodes := h.nodes
    rw [htypes] at hnodes
    exact List.map_eq_nil_iff.mp hnodes
  have hfilled : Filled g options ns t (reserved.map Prod.snd) t' :=
    h.filled (Next.refl (h.sound hsound)) (by simp [hreserved])
  have hdocument : addDocumentType refer options g ns t.model.modules.size = pure () := by
    have hempty : ((g.globals ns).filter fun d => d.space = .element).isEmpty = true := by
      rw [List.isEmpty_iff]
      exact helements
    unfold Lowering.addDocumentType
    simp only [hempty, if_true]
  subst hreserved
  rw [hdocument]
  exact .pure ⟨hfilled.finish helements, hfilled.module⟩

/-- A namespace whose export begins is complete in the end. -/
theorem Refers.exportNew (h : g.Loaded policy) (hrefer : Refers g options fuel refer)
    (hns : ns < g.namespaces.size) (hsound : t.Sound g) (hnew : ns ∉ t.exported)
    (hfuel : unfinished g (t.begin g ns) < fuel) :
    Succeeds (do
        let reserved ← reserve g t.model.modules.size (namedTypes g ns)
        reserved.forM fun (node, id) => Lowering.lowerType refer g node id t.model.modules.size
        Lowering.addDocumentType refer options g ns t.model.modules.size
        return t.model.modules.size) (t.begin g ns) fun m t' =>
      Next g options (fun _ => False) t t' ∧ (ns, m) ∈ t'.modules := by
  refine (reserve_succeeds h hns hsound.toKept hnew).bind ?_
  intro reserved t₁ hreserved
  by_cases hnone : g.typeDeclarations ns = [] ∧ g.elementDeclarations ns = []
  · exact hreserved.exportNone hsound hnone.1 hnone.2
  have hready : Ready g fuel t.model.modules.size t₁ := by
    have hmodule : (ns, t.model.modules.size) ∈ t₁.modules := by
      rw [hreserved.modules]
      exact List.mem_cons_self
    refine ⟨hreserved.sound hsound, hreserved.owner_lt, ⟨ns, hmodule, ?_⟩,
      Nat.lt_of_le_of_lt ?_ hfuel⟩
    · by_contra hboth
      obtain ⟨htypes, helements⟩ := not_or.mp hboth
      exact hnone ⟨not_not.mp htypes, not_not.mp helements⟩
    · refine unfinished_mono hreserved.unchanged.types ?_
      rw [hreserved.exported]
      exact List.Subset.refl _
  have hmem : ∀ e ∈ reserved, e ∈ t₁.types := fun e he => (hreserved.types e).mpr (Or.inl he)
  have hids : (reserved.map Prod.snd).Nodup := by
    rw [← hreserved.listed]
    exact hreserved.kept.model.nodup _ hreserved.owner_lt
  refine (hrefer.lowerAll h hids (fun e he => hreserved.kept.id_lt e (hmem e he)) hready).bind ?_
  rintro _ t₂ ⟨hnext₂, hlowered⟩
  refine (hrefer.addDocumentType h ns (hready.next hnext₂)).bind ?_
  rintro _ t₃ ⟨t₃', hnext₃, hdocument⟩
  have hfilled := (hreserved.filled hnext₂ hlowered).next hnext₃
  refine .pure ?_
  rcases hdocument with ⟨hnil, rfl⟩ | ⟨hne, decl, hdocument, hrefs, rfl⟩
  · exact ⟨hfilled.finish hnil, hfilled.module⟩
  · exact ⟨hfilled.addDocument hne hdocument hrefs, hfilled.module⟩

/-- The module of a namespace whose export has begun is found. -/
theorem moduleFor_of_exported (hkept : t.Kept g) (hns : ns ∈ t.exported) :
    ∃ m, (ns, m) ∈ t.modules ∧ t.moduleFor g ns = (t, m) := by
  rw [← hkept.modules] at hns
  obtain ⟨⟨_, m⟩, hm, rfl⟩ := List.mem_map.mp hns
  refine ⟨m, hm, ?_⟩
  unfold Target.moduleFor
  rw [hkept.moduleOf?_eq_some.mpr hm]

theorem Refers.exportWith (h : g.Loaded policy) (hrefer : Refers g options fuel refer)
    (hns : ns < g.namespaces.size) (hsound : t.Sound g)
    (hfuel : ns ∉ t.exported → unfinished g (t.begin g ns) < fuel) :
    Succeeds (exportWith refer options g ns) t fun m t' =>
      Next g options (fun _ => False) t t' ∧ (ns, m) ∈ t'.modules ∧ (ns ∈ t.exported → t' = t) := by
  refine .get ?_
  by_cases hmem : ns ∈ t.exported
  · obtain ⟨m, hm, hfor⟩ := moduleFor_of_exported hsound.toKept hmem
    have hexported : t.isExported ns = true := List.contains_iff_mem.mpr hmem
    rw [hfor]
    refine .set ?_
    rw [if_pos hexported]
    exact .pure ⟨Next.refl hsound, hm, fun _ => rfl⟩
  · have hnone : t.moduleOf? ns = none := by
      refine lookup_eq_none.mpr ?_
      rw [hsound.modules]
      exact hmem
    simp only [Target.moduleFor, hnone]
    refine .set ?_
    rw [if_neg (by simpa [Target.isExported] using hmem)]
    refine .set ((hrefer.exportNew h hns hsound hmem (hfuel hmem)).mono ?_)
    rintro m t' ⟨hnext, hm⟩
    exact ⟨hnext, hm, fun hbegun => absurd hbegun hmem⟩

/-! ## References -/

/-- A type without a name gets its declaration where it is met. -/
theorem Refers.anonymous (h : g.Loaded policy) (hrefer : Refers g options fuel refer) {node : NodeId}
    (hnode : node < g.nodes.size) (hname : (g.nodeAt node).name = none)
    (hfree : node ∉ t.types.map Prod.fst) (hready : Ready g (fuel + 1) owner t) :
    Succeeds (Lowering.lowerType refer g node t.model.types.size owner)
      (t.addTypeOf node (TypeDecl.ofSchema owner none .interface)).1 fun _ t' =>
        Next g options (fun _ => False) t t' ∧ t.model.types.size < t'.model.types.size := by
  set decl := TypeDecl.ofSchema owner none .interface with hdecl
  have hsound := hready.sound
  have hkept : (t.addTypeOf node decl).1.Kept g :=
    hsound.toKept.addTypeOf hready.owner_lt hready.occupied nofun hnode hfree
      (by rw [hname]; exact nofun)
  have hsize : (t.addTypeOf node decl).1.model.types.size = t.model.types.size + 1 :=
    Model.addType_types_size _ _
  have hready' : Ready g fuel owner (t.addTypeOf node decl).1 := by
    refine ⟨{ hkept with reserved := fun ns hns d hd => ?_ }, ?_, hready.occupied, ?_⟩
    · exact List.mem_cons_of_mem _ (hsound.reserved ns hns d hd)
    · change owner < (t.model.addType decl).1.modules.size
      rw [Model.addType_modules_size]
      exact hready.owner_lt
    · have hlt := unfinished_addTypeOf decl hnode hfree
      have hfuel := hready.fuel
      omega
  refine (hrefer.lowerType h node (hsize ▸ Nat.lt_succ_self _) hready').mono ?_
  rintro _ t' ⟨hnext, hlowered⟩
  have hext : Extends (fun _ => False) t (t.addTypeOf node decl).1 :=
    (Extends.refl _ t).addTypeOf node (Or.inl rfl)
  refine ⟨⟨hnext.sound, { hext.trans hnext.grows.toExtends ?_ with
    complete := fun ns hns => ?_
    lowered := fun e he => ?_ }⟩, ?_⟩
  · rintro _ hlt rfl
    exact Nat.lt_irrefl _ hlt
  · exact (hnext.grows.complete ns hns).imp_right fun hdone => hdone.mono hext.types_le
  · rcases hnext.grows.lowered e he with hold | hdone
    · rcases List.mem_cons.mp hold with rfl | hold
      · exact Or.inr hlowered
      · exact Or.inl hold
    · exact Or.inr hdone
  · exact Nat.lt_of_lt_of_le (hsize ▸ Nat.lt_succ_self _) hnext.grows.types_le

theorem typeRef_refers (h : g.Loaded policy) (options : ExportOptions) (fuel : Nat) :
    Refers g options fuel (typeRef options g fuel) := by
  induction fuel with
  | zero => exact fun node owner t _ hready => absurd hready.fuel (Nat.not_lt_zero _)
  | succ fuel ih =>
    intro node owner t hnode hready
    have hsound := hready.sound
    have hcases := h.isType_cases hnode
    unfold typeRef
    split
    · exact .pure ⟨Next.refl hsound, nofun, rfl⟩
    · rename_i hpayload
      refine .get ?_
      split
      · rename_i id hid
        have hlt := hsound.id_lt _ (hsound.typeOf?_eq_some.mp hid)
        refine .pure ⟨Next.refl hsound, fun id' hid' => ?_, rfl⟩
        cases hid'
        exact hlt
      · rename_i hnone
        have hfree := typeOf?_eq_none.mp hnone
        split
        · rename_i name hname
          obtain ⟨primitive, hbuiltin⟩ | hanon | ⟨hns, d, hd, rfl⟩ := hcases
          · exact absurd hbuiltin (hpayload primitive)
          · rw [hname] at hanon
            cases hanon
          -- once its namespace has been begun, the type has a declaration
          have hnew : (g.scopeAt (g.nodeAt d.node).scope).ns ∉ t.exported :=
            fun hmem => hfree (hsound.reserved _ hmem d hd)
          refine (ih.exportWith h hns hsound fun _ => ?_).bind ?_
          · have hlt := unfinished_begin hns hnew
            have hfuel := hready.fuel
            omega
          rintro m t' ⟨hnext, hm, _⟩
          have hexported : (g.scopeAt (g.nodeAt d.node).scope).ns ∈ t'.exported := by
            rw [← hnext.sound.modules]
            exact List.mem_map_of_mem hm
          obtain ⟨e, he, heq⟩ := List.mem_map.mp (hnext.sound.reserved _ hexported d hd)
          have hid : t'.typeOf? d.node = some e.2 :=
            hnext.sound.typeOf?_eq_some.mpr (heq ▸ he)
          refine .get ?_
          rw [hid]
          refine .pure ⟨hnext, fun id' hid' => ?_, rfl⟩
          cases hid'
          exact hnext.sound.id_lt e he
        · rename_i hname
          refine .get (.set ?_)
          refine (ih.anonymous h hnode.1 hname hfree hready).bind ?_
          rintro _ t' ⟨hnext, hlt⟩
          refine .pure ⟨hnext, fun id' hid' => ?_, rfl⟩
          cases hid'
          exact hlt

/-! ## Sequences of exports -/

/-- An export succeeds from every sound target, and changes nothing if it has been made before. -/
theorem exportNamespace_succeeds (h : g.Loaded policy) (options : ExportOptions)
    (hns : ns < g.namespaces.size) (hsound : t.Sound g) :
    Succeeds (exportNamespace options g ns) t fun m t' =>
      Next g options (fun _ => False) t t' ∧ (ns, m) ∈ t'.modules ∧ (ns ∈ t.exported → t' = t) :=
  (typeRef_refers h options (depthLimit g)).exportWith h hns hsound fun _ =>
    unfinished_lt_depthLimit g _

theorem mapM_exportNamespace_succeeds (h : g.Loaded policy) (options : ExportOptions)
    {nss : List NamespaceId} (hnss : ∀ ns ∈ nss, ns < g.namespaces.size) (hsound : t.Sound g) :
    Succeeds (nss.mapM (exportNamespace options g)) t fun ms t' =>
      Next g options (fun _ => False) t t' ∧
        List.Forall₂ (fun ns m => (ns, m) ∈ t'.modules) nss ms := by
  refine Succeeds.mapM (I := fun done ms t' => Next g options (fun _ => False) t t' ∧
    List.Forall₂ (fun ns m => (ns, m) ∈ t'.modules) done ms) ?_ ⟨Next.refl hsound, .nil⟩
  rintro done ns rest ms t' hl ⟨hnext, hms⟩
  have hns := hnss ns (by rw [hl]; exact List.mem_append_right _ List.mem_cons_self)
  refine (exportNamespace_succeeds h options hns hnext.sound).mono ?_
  rintro m t'' ⟨hnext', hm, _⟩
  refine ⟨hnext.trans hnext', List.rel_append ?_ (.cons hm .nil)⟩
  exact hms.imp fun _ _ hmem => hnext'.grows.modules hmem

/-- Where a declaration belongs to after exports, there is one with a name. -/
theorem Next.inhabited (h : Next g options (fun _ => False) {} t) (id : TypeId)
    (hid : id < t.model.types.size) : (t.model.moduleAt (t.model.typeAt id).owner).types ≠ [] := by
  obtain ⟨ns, hmodule, hdeclares⟩ := h.sound.owners id hid
  have hns : ns ∈ t.exported := by
    rw [← h.sound.modules]
    exact List.mem_map_of_mem hmodule
  obtain ⟨owner, ids, documents, howner, hlist, hids, _, hdocument⟩ :=
    (h.grows.complete ns hns).resolve_left (by simp)
  have hsame : owner = (t.model.typeAt id).owner :=
    Option.some.inj ((h.sound.moduleOf?_eq_some.mpr howner).symm.trans
      (h.sound.moduleOf?_eq_some.mpr hmodule))
  rw [← hsame, hlist]
  intro hnil
  obtain ⟨rfl, rfl⟩ := List.append_eq_nil_iff.mp hnil
  rcases hdeclares with htypes | helements
  · cases hd : g.typeDeclarations ns with
    | nil => exact htypes hd
    | cons d ds =>
      rw [hd] at hids
      cases hids
  · obtain ⟨document, _, _, hone, _⟩ := hdocument helements
    cases hone

/-- Namespaces of a loaded graph can be exported in any order and any number of times. Whatever has
been exported then is complete, no two types share a declaration, and no declaration refers to one
that is not there. An export that has been made before gives the same module and changes nothing. -/
theorem exports_complete {documents : String → Except FetchFault String} {limit : Nat}
    {url : String} {uri : Option String} {entry : NamespaceId}
    (hload : Loading.load (m := Id) documents limit (Graph.initial policy) url uri = .ok (g, entry))
    (options : ExportOptions) (nss : List NamespaceId) (hnss : ∀ ns ∈ nss, ns < g.namespaces.size) :
    ∃ ms t, (nss.mapM (exportNamespace options g)).run.run {} = (.ok ms, t) ∧
      List.Forall₂ (fun ns m => t.isExported ns = true ∧ t.moduleOf? ns = some m) nss ms ∧
      (∀ ns, t.isExported ns = true → t.Complete g options 0 ns ∧
        ∃ m, t.moduleOf? ns = some m ∧ (exportNamespace options g ns).run.run t = (.ok m, t)) ∧
      (∀ n n' id, t.typeOf? n = some id → t.typeOf? n' = some id → n = n') ∧
      ∀ id, id < t.model.types.size → ∀ r ∈ (t.model.typeAt id).refs,
        r.InRange t.model.types.size := by
  have h := Loading.load_loaded hload
  obtain ⟨ms, t, hrun, hnext, hms⟩ :=
    mapM_exportNamespace_succeeds h options hnss (sound_empty g)
  have hsound := hnext.sound
  have hexported : ∀ {ns}, t.isExported ns = true ↔ ns ∈ t.exported := List.contains_iff_mem
  have hmodule : ∀ ns m, (ns, m) ∈ t.modules →
      t.isExported ns = true ∧ t.moduleOf? ns = some m := by
    refine fun ns m hm => ⟨?_, hsound.moduleOf?_eq_some.mpr hm⟩
    rw [hexported, ← hsound.modules]
    exact List.mem_map_of_mem hm
  refine ⟨ms, t, hrun, hms.imp hmodule, fun ns hns => ⟨?_, ?_⟩, fun n n' id hn hn' => ?_,
    hsound.model.refs⟩
  · exact (hnext.grows.complete ns (hexported.mp hns)).resolve_left nofun
  · have hmem := hexported.mp hns
    obtain ⟨m, t', hagain, _, hm, hsame⟩ :=
      exportNamespace_succeeds h options (hsound.exported_lt ns hmem) hsound
    cases hsame hmem
    exact ⟨m, hsound.moduleOf?_eq_some.mpr hm, hagain⟩
  · rw [hsound.typeOf?_eq_some] at hn hn'
    exact congrArg Prod.fst (List.inj_on_of_nodup_map hsound.ids hn hn' rfl)

set_option maxRecDepth 100000 in
/-- Two namespaces, both with global elements, the second of them with a type that the first needs. -/
theorem load_treeDocuments_elements :
    ∃ g entry other, Loading.load (m := Id) Loading.treeDocuments 2 (Graph.initial .standard) "a"
        none = .ok (g, entry) ∧ entry < g.namespaces.size ∧ other < g.namespaces.size ∧
      entry ≠ other ∧ g.elementDeclarations entry ≠ [] ∧ g.typeDeclarations other ≠ [] := by
  have heval : ((Loading.load (m := Id) Loading.treeDocuments 2 (Graph.initial .standard) "a"
        none).toOption.map fun r => (List.range r.1.namespaces.size).any fun other =>
      decide (r.2 < r.1.namespaces.size ∧ r.2 ≠ other ∧ r.1.elementDeclarations r.2 ≠ [] ∧
        r.1.typeDeclarations other ≠ [])) = some true :=
    Loading.load_of_letters (fun _ => .ite (.append (.ok _) _) (.append (.append (.ok _) _) _))
      (by decide +kernel)
  obtain ⟨r, hload, hany⟩ := Sequencing.eq_ok_of_toOption heval
  obtain ⟨other, hother, hfacts⟩ := List.any_eq_true.mp hany
  obtain ⟨hentry, hne, helements, htypes⟩ := of_decide_eq_true hfacts
  exact ⟨r.1, r.2, other, hload, hentry, List.mem_range.mp hother, hne, helements, htypes⟩

theorem exports_complete_example :
    ∃ g entry other ms t, Loading.load (m := Id) Loading.treeDocuments 2 (Graph.initial .standard)
        "a" none = .ok (g, entry) ∧ entry ≠ other ∧
      ([entry, other, entry].mapM (exportNamespace {} g)).run.run {} = (.ok ms, t) ∧
      g.elementDeclarations entry ≠ [] ∧ t.Complete g {} 0 entry ∧
      g.typeDeclarations other ≠ [] ∧ t.Complete g {} 0 other := by
  obtain ⟨g, entry, other, hload, hentry, hother, hne, helements, htypes⟩ :=
    load_treeDocuments_elements
  have hnss : ∀ ns ∈ [entry, other, entry], ns < g.namespaces.size := by
    simp only [List.mem_cons, List.not_mem_nil, or_false]
    rintro ns (rfl | rfl | rfl) <;> assumption
  obtain ⟨ms, t, hrun, hms, hcomplete, _⟩ := exports_complete hload {} [entry, other, entry] hnss
  cases hms with
  | cons h₁ hms =>
    cases hms with
    | cons h₂ hms =>
      exact ⟨g, entry, other, _, t, hload, hne, hrun, helements, (hcomplete entry h₁.1).1, htypes,
        (hcomplete other h₂.1).1⟩

end XsdTypes.Lowering
