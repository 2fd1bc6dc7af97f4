import XsdTypes.Proofs.Counting
import XsdTypes.Proofs.Lowering.Build
import XsdTypes.Proofs.Lowering.NamedTypes
import XsdTypes.Proofs.Lowering.Outline
import XsdTypes.Proofs.Model.Sound

/-!
# Targets while a graph is exported

`Target.Kept` holds at every point of an export, and `Target.Sound` whenever all types of the
namespaces whose export has begun have their declarations. `Target.Extends` says what a step leaves
alone; `Target.Grows` says in addition that whatever it has begun it has finished.
-/

namespace XsdTypes

section Lookup

variable {α β : Type} [BEq α] [LawfulBEq α] {l : List (α × β)} {a : α} {b : β}

theorem lookup_eq_none : l.lookup a = none ↔ a ∉ l.map Prod.fst := by
  rw [List.lookup_eq_none_iff]
  constructor
  · intro h hmem
    obtain ⟨e, he, rfl⟩ := List.mem_map.mp hmem
    simpa using h e he
  · intro h e he
    rw [bne_iff_ne]
    rintro rfl
    exact h (List.mem_map_of_mem he)

theorem lookup_eq_some (hnodup : (l.map Prod.fst).Nodup) : l.lookup a = some b ↔ (a, b) ∈ l := by
  induction l with
  | nil => simp
  | cons e l ih =>
    obtain ⟨k, v⟩ := e
    rw [List.map_cons, List.nodup_cons] at hnodup
    rw [List.lookup_cons, List.mem_cons]
    by_cases hk : a = k
    · subst hk
      have hnotin : (a, b) ∉ l := fun hmem => hnodup.1 (List.mem_map.mpr ⟨_, hmem, rfl⟩)
      simp [hnotin, eq_comm]
    · have hbeq : (a == k) = false := beq_eq_false_iff_ne.mpr hk
      simp [hbeq, hk, ih hnodup.2]

end Lookup

namespace Target

/-- The module is that of a namespace which declares a type or an element. -/
def Occupied (g : Graph) (t : Target) (owner : ModuleId) : Prop :=
  ∃ ns, (ns, owner) ∈ t.modules ∧ (g.typeDeclarations ns ≠ [] ∨ g.elementDeclarations ns ≠ [])

/-- What holds of a target at every point of an export. -/
structure Kept (g : Graph) (t : Target) : Prop where
  model : t.model.Sound
  keys : (t.types.map Prod.fst).Nodup
  ids : (t.types.map Prod.snd).Nodup
  key_lt : ∀ e ∈ t.types, e.1 < g.nodes.size
  id_lt : ∀ e ∈ t.types, e.2 < t.model.types.size
  modules : t.modules.map Prod.fst = t.exported
  module_lt : ∀ e ∈ t.modules, e.2 < t.model.modules.size
  modules_nodup : (t.modules.map Prod.snd).Nodup
  exported_nodup : t.exported.Nodup
  exported_lt : ∀ ns ∈ t.exported, ns < g.namespaces.size
  /-- A named type has its declaration only if the export of its namespace has begun. -/
  named : ∀ e ∈ t.types, (g.nodeAt e.1).name.isSome →
    (g.scopeAt (g.nodeAt e.1).scope).ns ∈ t.exported
  owners : ∀ id, id < t.model.types.size → t.Occupied g (t.model.typeAt id).owner

/-- All types of the namespaces whose export has begun have their declarations. -/
structure Sound (g : Graph) (t : Target) : Prop extends Kept g t where
  reserved : ∀ ns ∈ t.exported, ∀ d ∈ g.typeDeclarations ns, d.node ∈ t.types.map Prod.fst

/-- What a step leaves alone: all declarations apart from those in `S`, and the lists of the
modules. -/
structure Extends (S : TypeId → Prop) (t t' : Target) : Prop where
  types : t.types ⊆ t'.types
  new_ids : ∀ e ∈ t'.types, e ∈ t.types ∨ t.model.types.size ≤ e.2
  types_le : t.model.types.size ≤ t'.model.types.size
  modules_le : t.model.modules.size ≤ t'.model.modules.size
  decl : ∀ id, id < t.model.types.size → ¬ S id → t'.model.typeAt id = t.model.typeAt id
  listed : ∀ i, i < t.model.modules.size →
    (t'.model.moduleAt i).types = (t.model.moduleAt i).types
  modules : t.modules ⊆ t'.modules
  exported : t.exported ⊆ t'.exported

/-- The type of whole documents of a namespace has one member for each of its global elements. -/
structure IsDocument (g : Graph) (options : Lowering.ExportOptions) (ns : NamespaceId)
    (owner : ModuleId) (decl : TypeDecl) : Prop where
  owner : decl.owner = owner
  name : decl.name = some options.document
  shape : decl.shape = .document
  members : decl.members.map (fun m => (m.kind, m.xmlName)) =
    (g.elementDeclarations ns).map fun d => (.element, Lowering.localName d)

/-- The module of a namespace lists its types in order, and after them the type of whole documents
if the namespace has global elements. What comes after the types has a number from `first` on. -/
def Complete (g : Graph) (options : Lowering.ExportOptions) (first : Nat) (t : Target)
    (ns : NamespaceId) : Prop :=
  ∃ owner ids documents, (ns, owner) ∈ t.modules ∧
    (t.model.moduleAt owner).types = ids ++ documents ∧
    List.Forall₂ (fun d id => (d.node, id) ∈ t.types) (g.typeDeclarations ns) ids ∧
    (g.elementDeclarations ns = [] → documents = []) ∧
    (g.elementDeclarations ns ≠ [] → ∃ id, first ≤ id ∧ id < t.model.types.size ∧
      documents = [id] ∧ IsDocument g options ns owner (t.model.typeAt id))

/-- What a step has begun it has finished. -/
structure Grows (g : Graph) (options : Lowering.ExportOptions) (S : TypeId → Prop)
    (t t' : Target) : Prop extends Extends S t t' where
  complete : ∀ ns ∈ t'.exported, ns ∈ t.exported ∨
    t'.Complete g options t.model.types.size ns
  lowered : ∀ e ∈ t'.types, e ∈ t.types ∨ Lowering.IsLowered g e.1 (t'.model.typeAt e.2)

variable {g : Graph} {options : Lowering.ExportOptions} {S S' : TypeId → Prop} {t t' t'' : Target}

theorem Occupied.mono {owner : ModuleId} (h : t.Occupied g owner) (hmodules : t.modules ⊆ t'.modules) :
    t'.Occupied g owner := by
  obtain ⟨ns, hmem, hdeclares⟩ := h
  exact ⟨ns, hmodules hmem, hdeclares⟩

theorem Kept.typeOf?_eq_some (h : t.Kept g) {node : NodeId} {id : TypeId} :
    t.typeOf? node = some id ↔ (node, id) ∈ t.types :=
  lookup_eq_some h.keys

theorem typeOf?_eq_none {node : NodeId} : t.typeOf? node = none ↔ node ∉ t.types.map Prod.fst :=
  lookup_eq_none

theorem Kept.moduleOf?_eq_some (h : t.Kept g) {ns : NamespaceId} {owner : ModuleId} :
    t.moduleOf? ns = some owner ↔ (ns, owner) ∈ t.modules :=
  lookup_eq_some (by rw [h.modules]; exact h.exported_nodup)

theorem sound_empty (g : Graph) : ({} : Target).Sound g where
  model := Model.sound_empty
  keys := List.nodup_nil
  ids := List.nodup_nil
  key_lt _ h := nomatch h
  id_lt _ h := nomatch h
  modules := rfl
  module_lt _ h := nomatch h
  modules_nodup := List.nodup_nil
  exported_nodup := List.nodup_nil
  exported_lt _ h := nomatch h
  named _ h := nomatch h
  owners _ h := absurd h (Nat.not_lt_zero _)
  reserved _ h := nomatch h

/-! ## Leaving alone -/

namespace Extends

theorem refl (S : TypeId → Prop) (t : Target) : Extends S t t where
  types := List.Subset.refl _
  new_ids _ h := Or.inl h
  types_le := Nat.le_refl _
  modules_le := Nat.le_refl _
  decl _ _ _ := rfl
  listed _ _ := rfl
  modules := List.Subset.refl _
  exported := List.Subset.refl _

theorem trans (h : Extends S t t') (h' : Extends S' t' t'')
    (hS : ∀ id, id < t.model.types.size → S' id → S id) : Extends S t t'' where
  types := List.Subset.trans h.types h'.types
  new_ids e he := by
    rcases h'.new_ids e he with hold | hnew
    · exact h.new_ids e hold
    · exact Or.inr (Nat.le_trans h.types_le hnew)
  types_le := Nat.le_trans h.types_le h'.types_le
  modules_le := Nat.le_trans h.modules_le h'.modules_le
  decl id hid hn := by
    rw [h'.decl id (Nat.lt_of_lt_of_le hid h.types_le) fun hs => hn (hS id hid hs), h.decl id hid hn]
  listed i hi := by rw [h'.listed i (Nat.lt_of_lt_of_le hi h.modules_le), h.listed i hi]
  modules := List.Subset.trans h.modules h'.modules
  exported := List.Subset.trans h.exported h'.exported

/-- A declaration is added that is listed in no module that was there. -/
theorem addType (h : Extends S t t') {decl : TypeDecl}
    (howner : decl.isAnonymous = true ∨ t.model.modules.size ≤ decl.owner) :
    Extends S t (t'.addType decl).1 where
  types := h.types
  new_ids := h.new_ids
  types_le := by
    change _ ≤ (t'.model.addType decl).1.types.size
    rw [Model.addType_types_size]
    exact Nat.le_succ_of_le h.types_le
  modules_le := by
    change _ ≤ (t'.model.addType decl).1.modules.size
    rw [Model.addType_modules_size]
    exact h.modules_le
  decl id hid hn := by
    change (t'.model.addType decl).1.typeAt id = _
    rw [Model.typeAt_addType, if_neg (Nat.ne_of_lt (Nat.lt_of_lt_of_le hid h.types_le))]
    exact h.decl id hid hn
  listed i hi := by
    change ((t'.model.addType decl).1.moduleAt i).types = _
    rw [Model.moduleAt_addType, if_neg, h.listed i hi]
    rintro ⟨hnamed, rfl, _⟩
    rcases howner with hanon | hle
    · rw [hanon] at hnamed
      cases hnamed
    · exact absurd hi (Nat.not_lt.mpr hle)
  modules := h.modules
  exported := h.exported

theorem addTypeOf (h : Extends S t t') (node : NodeId) {decl : TypeDecl}
    (howner : decl.isAnonymous = true ∨ t.model.modules.size ≤ decl.owner) :
    Extends S t (t'.addTypeOf node decl).1 := by
  have hadd := h.addType howner
  refine { hadd with
    types := List.Subset.trans hadd.types (List.subset_cons_self _ _)
    new_ids := fun e he => ?_ }
  rcases List.mem_cons.mp he with rfl | hold
  · exact Or.inr h.types_le
  · exact h.new_ids e hold

/-- A declaration is changed that may change, or that was not there. -/
theorem modifyType (h : Extends S t t') {id : TypeId} (hid : id < t.model.types.size → S id)
    (f : TypeDecl → TypeDecl) : Extends S t (t'.modifyType id f) where
  types := h.types
  new_ids := h.new_ids
  types_le := by
    change _ ≤ (t'.model.modifyType id f).types.size
    rw [Model.modifyType_types_size]
    exact h.types_le
  modules_le := h.modules_le
  decl j hj hn := by
    change (t'.model.modifyType id f).typeAt j = _
    rw [Model.typeAt_modifyType, if_neg, h.decl j hj hn]
    rintro ⟨rfl, _⟩
    exact hn (hid hj)
  listed := h.listed
  modules := h.modules
  exported := h.exported

end Extends

/-! ## Finishing what has begun -/

theorem Complete.congr {n : Nat} {ns : NamespaceId} (h : t.Complete g options n ns)
    (htypes : t.types ⊆ t'.types) (hmodules : t.modules ⊆ t'.modules)
    (hle : t.model.types.size ≤ t'.model.types.size)
    (hlisted : ∀ owner, (ns, owner) ∈ t.modules →
      (t'.model.moduleAt owner).types = (t.model.moduleAt owner).types)
    (hdecl : ∀ id, n ≤ id → id < t.model.types.size → t'.model.typeAt id = t.model.typeAt id) :
    t'.Complete g options n ns := by
  obtain ⟨owner, ids, documents, howner, hlist, hids, hnone, hsome⟩ := h
  refine ⟨owner, ids, documents, hmodules howner, (hlisted owner howner).trans hlist,
    hids.imp fun _ _ h => htypes h, hnone, fun hne => ?_⟩
  obtain ⟨id, hn, hlt, hdoc, hdocument⟩ := hsome hne
  refine ⟨id, hn, Nat.lt_of_lt_of_le hlt hle, hdoc, ?_⟩
  rw [hdecl id hn hlt]
  exact hdocument

theorem Complete.mono {n k : Nat} {ns : NamespaceId} (h : t.Complete g options n ns) (hk : k ≤ n) :
    t.Complete g options k ns := by
  obtain ⟨owner, ids, documents, howner, hlist, hids, hnone, hsome⟩ := h
  refine ⟨owner, ids, documents, howner, hlist, hids, hnone, fun hne => ?_⟩
  obtain ⟨id, hn, hrest⟩ := hsome hne
  exact ⟨id, Nat.le_trans hk hn, hrest⟩

theorem Complete.extend {n : Nat} {ns : NamespaceId} (h : t.Complete g options n ns)
    (hkept : t.Kept g) (hext : Extends S t t') (hS : ∀ id, n ≤ id → ¬ S id) :
    t'.Complete g options n ns :=
  h.congr hext.types hext.modules hext.types_le
    (fun owner howner => hext.listed owner (hkept.module_lt _ howner))
    fun id hn hlt => hext.decl id hlt (hS id hn)

namespace Grows

theorem refl (g : Graph) (options : Lowering.ExportOptions) (S : TypeId → Prop) (t : Target) :
    Grows g options S t t where
  toExtends := Extends.refl S t
  complete _ h := Or.inl h
  lowered _ h := Or.inl h

/-- What has been finished stays so, because only older declarations change. -/
theorem trans (h : Grows g options S t t') (h' : Grows g options S' t' t'') (hkept : t'.Kept g)
    (hS : ∀ id, S' id → id < t.model.types.size ∧ S id) : Grows g options S t t'' where
  toExtends := h.toExtends.trans h'.toExtends fun id _ hs => (hS id hs).2
  complete ns hns := by
    have hfree : ∀ id, t.model.types.size ≤ id → ¬ S' id :=
      fun id hle hs => absurd (hS id hs).1 (Nat.not_lt.mpr hle)
    rcases h'.complete ns hns with hold | hnew
    · rcases h.complete ns hold with hold' | hdone
      · exact Or.inl hold'
      · exact Or.inr (hdone.extend hkept h'.toExtends hfree)
    · exact Or.inr (hnew.mono h.types_le)
  lowered e he := by
    rcases h'.lowered e he with hold | hdone
    · rcases h.lowered e hold with hold' | hdone
      · exact Or.inl hold'
      · rcases h.new_ids e hold with hold' | hle
        · exact Or.inl hold'
        · rw [h'.decl e.2 (hkept.id_lt e hold) fun hs => absurd (hS _ hs).1 (Nat.not_lt.mpr hle)]
          exact Or.inr hdone
    · exact Or.inr hdone

/-- More declarations may change. -/
theorem weaken (h : Grows g options S t t') (hS : ∀ id, S id → S' id) : Grows g options S' t t' where
  toExtends := { h.toExtends with decl := fun id hid hn => h.decl id hid fun hs => hn (hS id hs) }
  complete := h.complete
  lowered := h.lowered

/-- A declaration without a name that no node becomes. -/
theorem addType (h : Grows g options S t t') (hkept : t'.Kept g) {decl : TypeDecl}
    (hanon : decl.isAnonymous = true) : Grows g options S t (t'.addType decl).1 where
  toExtends := h.toExtends.addType (Or.inl hanon)
  complete ns hns := by
    have hext := (Extends.refl (fun _ => False) t').addType (Or.inl hanon)
    exact (h.complete ns hns).imp_right fun hdone =>
      hdone.extend hkept hext fun _ _ hs => hs
  lowered e he := by
    refine (h.lowered e he).imp_right fun hdone => ?_
    change Lowering.IsLowered g e.1 ((t'.model.addType decl).1.typeAt e.2)
    rw [Model.typeAt_addType, if_neg (Nat.ne_of_lt (hkept.id_lt e he))]
    exact hdone

/-- A declaration that was there and may change. -/
theorem modifyType (h : Grows g options S t t') (hkept : t'.Kept g) {id : TypeId}
    (hid : id < t.model.types.size) (hS : S id) (f : TypeDecl → TypeDecl) :
    Grows g options S t (t'.modifyType id f) where
  toExtends := h.toExtends.modifyType (fun _ => hS) f
  complete ns hns := by
    have hext := (Extends.refl (· = id) t').modifyType (fun _ => rfl) f
    refine (h.complete ns hns).imp_right fun hdone => hdone.extend hkept hext fun j hle hj => ?_
    exact absurd hid (Nat.not_lt.mpr (hj ▸ hle))
  lowered e he := by
    rcases h.new_ids e he with hold | hnew
    · exact Or.inl hold
    · refine (h.lowered e he).imp_right fun hdone => ?_
      change Lowering.IsLowered g e.1 ((t'.model.modifyType id f).typeAt e.2)
      rw [Model.typeAt_modifyType, if_neg]
      · exact hdone
      · rintro ⟨heq, _⟩
        exact absurd hid (Nat.not_lt.mpr (heq ▸ hnew))

end Grows

/-! ## Steps that keep a target -/

namespace Kept

theorem addType (h : t.Kept g) {decl : TypeDecl} (howner : decl.owner < t.model.modules.size)
    (hoccupied : t.Occupied g decl.owner)
    (hrefs : ∀ r ∈ decl.refs, r.InRange t.model.types.size) : (t.addType decl).1.Kept g where
  model := h.model.addType howner hrefs
  keys := h.keys
  ids := h.ids
  key_lt := h.key_lt
  id_lt e he := by
    change e.2 < (t.model.addType decl).1.types.size
    rw [Model.addType_types_size]
    exact Nat.lt_succ_of_lt (h.id_lt e he)
  modules := h.modules
  module_lt e he := by
    change e.2 < (t.model.addType decl).1.modules.size
    rw [Model.addType_modules_size]
    exact h.module_lt e he
  modules_nodup := h.modules_nodup
  exported_nodup := h.exported_nodup
  exported_lt := h.exported_lt
  named := h.named
  owners id hid := by
    change id < (t.model.addType decl).1.types.size at hid
    change t.Occupied g ((t.model.addType decl).1.typeAt id).owner
    rw [Model.addType_types_size] at hid
    rw [Model.typeAt_addType]
    split
    · exact hoccupied
    · rename_i hne
      exact h.owners id (Nat.lt_of_le_of_ne (Nat.le_of_lt_succ hid) hne)

theorem addTypeOf (h : t.Kept g) {node : NodeId} {decl : TypeDecl}
    (howner : decl.owner < t.model.modules.size) (hoccupied : t.Occupied g decl.owner)
    (hrefs : ∀ r ∈ decl.refs, r.InRange t.model.types.size) (hnode : node < g.nodes.size)
    (hfree : node ∉ t.types.map Prod.fst)
    (hnamed : (g.nodeAt node).name.isSome → (g.scopeAt (g.nodeAt node).scope).ns ∈ t.exported) :
    (t.addTypeOf node decl).1.Kept g := by
  have hadd := h.addType howner hoccupied hrefs
  refine { hadd with
    keys := List.nodup_cons.mpr ⟨hfree, h.keys⟩
    ids := List.nodup_cons.mpr ⟨fun hmem => ?_, h.ids⟩
    key_lt := fun e he => ?_
    id_lt := fun e he => ?_
    named := fun e he => ?_ }
  · obtain ⟨e, he, heq⟩ := List.mem_map.mp hmem
    exact absurd (h.id_lt e he) (by rw [heq]; exact Nat.lt_irrefl _)
  · rcases List.mem_cons.mp he with rfl | hold
    · exact hnode
    · exact h.key_lt e hold
  · rcases List.mem_cons.mp he with rfl | hold
    · change t.model.types.size < (t.model.addType decl).1.types.size
      rw [Model.addType_types_size]
      exact Nat.lt_succ_self _
    · exact hadd.id_lt e hold
  · rcases List.mem_cons.mp he with rfl | hold
    · exact hnamed
    · exact h.named e hold

theorem modifyType (h : t.Kept g) (id : TypeId) {f : TypeDecl → TypeDecl}
    (howner : (f (t.model.typeAt id)).owner = (t.model.typeAt id).owner)
    (hname : (f (t.model.typeAt id)).isAnonymous = (t.model.typeAt id).isAnonymous)
    (hrefs : ∀ r ∈ (f (t.model.typeAt id)).refs, r.InRange t.model.types.size) :
    (t.modifyType id f).Kept g := by
  refine { h with
    model := h.model.modifyType id howner hname hrefs
    id_lt := fun e he => ?_
    owners := fun j hj => ?_ }
  · change e.2 < (t.model.modifyType id f).types.size
    rw [Model.modifyType_types_size]
    exact h.id_lt e he
  · change j < (t.model.modifyType id f).types.size at hj
    change t.Occupied g ((t.model.modifyType id f).typeAt j).owner
    rw [Model.modifyType_types_size] at hj
    rw [Model.typeAt_modifyType]
    split
    · rename_i hsame
      rw [hsame.1, howner]
      exact h.owners id (hsame.1 ▸ hj)
    · exact h.owners j hj

end Kept

/-- The target with a new module for a namespace whose export begins. -/
def begin (t : Target) (g : Graph) (ns : NamespaceId) : Target :=
  { t with
    model := (t.model.addModule (g.namespaceAt ns).uri
      (Lowering.modulePath (g.namespaceAt ns).uri)).1
    modules := (ns, t.model.modules.size) :: t.modules
    exported := ns :: t.exported }

theorem Kept.begin (h : t.Kept g) {ns : NamespaceId} (hns : ns < g.namespaces.size)
    (hnew : ns ∉ t.exported) : (t.begin g ns).Kept g where
  model := h.model.addModule _ _
  keys := h.keys
  ids := h.ids
  key_lt := h.key_lt
  id_lt := h.id_lt
  modules := by
    change ns :: t.modules.map Prod.fst = ns :: t.exported
    rw [h.modules]
  module_lt e he := by
    change e.2 < (t.model.addModule _ _).1.modules.size
    rw [Model.addModule_modules_size]
    rcases List.mem_cons.mp he with rfl | hold
    · exact Nat.lt_succ_self _
    · exact Nat.lt_succ_of_lt (h.module_lt e hold)
  modules_nodup := by
    refine List.nodup_cons.mpr ⟨fun hmem => ?_, h.modules_nodup⟩
    obtain ⟨e, he, heq⟩ := List.mem_map.mp hmem
    exact absurd (h.module_lt e he) (by rw [heq]; exact Nat.lt_irrefl _)
  exported_nodup := List.nodup_cons.mpr ⟨hnew, h.exported_nodup⟩
  exported_lt ns' hns' := by
    rcases List.mem_cons.mp hns' with rfl | hold
    · exact hns
    · exact h.exported_lt ns' hold
  named e he hname := List.mem_cons_of_mem _ (h.named e he hname)
  owners id hid := (h.owners id hid).mono (List.subset_cons_self _ _)

theorem Extends.begin (t : Target) (g : Graph) (ns : NamespaceId) (S : TypeId → Prop) :
    Extends S t (t.begin g ns) where
  types := List.Subset.refl _
  new_ids _ he := Or.inl he
  types_le := Nat.le_refl _
  modules_le := by
    change _ ≤ (t.model.addModule _ _).1.modules.size
    rw [Model.addModule_modules_size]
    exact Nat.le_succ _
  decl _ _ _ := rfl
  listed i hi := by
    change ((t.model.addModule _ _).1.moduleAt i).types = _
    rw [Model.moduleAt_addModule_of_lt _ _ _ hi]
  modules := List.subset_cons_self _ _
  exported := List.subset_cons_self _ _

/-! ## What is left to do -/

/-- How many nodes have no declaration, and how many namespaces have not been begun. -/
def unfinished (g : Graph) (t : Target) : Nat :=
  absentBelow g.nodes.size (t.types.map Prod.fst) + absentBelow g.namespaces.size t.exported

theorem unfinished_mono (htypes : t.types ⊆ t'.types) (hexported : t.exported ⊆ t'.exported) :
    unfinished g t' ≤ unfinished g t :=
  Nat.add_le_add (absentBelow_anti (List.map_subset _ htypes)) (absentBelow_anti hexported)

theorem unfinished_addTypeOf {node : NodeId} (decl : TypeDecl) (hnode : node < g.nodes.size)
    (hfree : node ∉ t.types.map Prod.fst) :
    unfinished g (t.addTypeOf node decl).1 < unfinished g t :=
  Nat.add_lt_add_right (absentBelow_cons_lt hnode hfree) _

theorem unfinished_begin {ns : NamespaceId} (hns : ns < g.namespaces.size)
    (hnew : ns ∉ t.exported) : unfinished g (t.begin g ns) < unfinished g t :=
  Nat.add_lt_add_left (absentBelow_cons_lt hns hnew) _

theorem unfinished_lt_depthLimit (g : Graph) (t : Target) :
    unfinished g t < Lowering.depthLimit g :=
  Nat.lt_succ_of_le (Nat.add_le_add (absentBelow_le _ _) (absentBelow_le _ _))

end Target

end XsdTypes
