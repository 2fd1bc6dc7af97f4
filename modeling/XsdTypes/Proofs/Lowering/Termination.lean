import XsdTypes.Proofs.Lowering.Target
import XsdTypes.Proofs.Schema.Reached

/-!
# Exports come to an end

Two recursions make up an export. A reference to a type may export a namespace or lower a type, and
so make further references; each of these is made when fewer nodes are without a declaration, or
fewer namespaces have not been begun. The expansion of a scope may enter groups; the path of groups
that have been entered never holds one twice, so it grows only as long as there are nodes.

The numbers that bound both recursions are therefore large enough. To say this without them, the body
of each recursion is written with the recursive call left open (`typeRefWith`, `expandWith`): there
is one function that calls itself in this place, and it is the one that has the bound.
-/

namespace XsdTypes

/-- Nothing that has a declaration, and no namespace that has been begun, is forgotten. -/
structure Target.Within (t t' : Target) : Prop where
  types : t.types ⊆ t'.types
  exported : t.exported ⊆ t'.exported

/-- From the target `t` the two steps come to the same, whether they succeed or fail, and forget
nothing. -/
def Same {α : Type} (x x' : Build α) (t : Target) : Prop :=
  ∃ r t', x.run.run t = (r, t') ∧ x'.run.run t = (r, t') ∧ t.Within t'

theorem Target.Within.refl (t : Target) : t.Within t :=
  ⟨List.Subset.refl _, List.Subset.refl _⟩

theorem Target.Within.trans {t t' t'' : Target} (h : t.Within t') (h' : t'.Within t'') :
    t.Within t'' :=
  ⟨List.Subset.trans h.types h'.types, List.Subset.trans h.exported h'.exported⟩

theorem Target.Within.unfinished_le {t t' : Target} (h : t.Within t') (g : Graph) :
    t'.unfinished g ≤ t.unfinished g :=
  Target.unfinished_mono h.types h.exported

namespace Same

variable {α β : Type} {t t₁ : Target} {x x' : Build α}

theorem pure (a : α) (t : Target) : Same (Pure.pure a : Build α) (Pure.pure a) t :=
  ⟨.ok a, t, rfl, rfl, .refl t⟩

theorem fails (e : ExportError) (t : Target) : Same (throw e : Build α) (throw e) t :=
  ⟨.error e, t, rfl, rfl, .refl t⟩

theorem run_eq (h : Same x x' t) : x.run.run t = x'.run.run t := by
  obtain ⟨r, t', hx, hx', _⟩ := h
  rw [hx, hx']

theorem bind {f f' : α → Build β} (h : Same x x' t)
    (hf : ∀ a t', t.Within t' → Same (f a) (f' a) t') : Same (x >>= f) (x' >>= f') t := by
  obtain ⟨r, t', hx, hx', hwithin⟩ := h
  cases r with
  | error e =>
    refine ⟨.error e, t', ?_, ?_, hwithin⟩
    · rw [ExceptT.run_bind, StateT.run_bind, hx]
      rfl
    · rw [ExceptT.run_bind, StateT.run_bind, hx']
      rfl
  | ok a =>
    obtain ⟨r, t'', hfa, hfa', hwithin'⟩ := hf a t' hwithin
    refine ⟨r, t'', ?_, ?_, hwithin.trans hwithin'⟩
    · rw [ExceptT.run_bind, StateT.run_bind, hx]
      exact hfa
    · rw [ExceptT.run_bind, StateT.run_bind, hx']
      exact hfa'

theorem get {f f' : Target → Build α} (h : Same (f t) (f' t) t) :
    Same (MonadState.get >>= f) (MonadState.get >>= f') t := by
  obtain ⟨r, t', hf, hf', hwithin⟩ := h
  exact ⟨r, t', hf, hf', hwithin⟩

theorem set {f f' : Build α} (ht : t.Within t₁) (h : Same f f' t₁) :
    Same (MonadStateOf.set t₁ >>= fun _ => f) (MonadStateOf.set t₁ >>= fun _ => f') t := by
  obtain ⟨r, t', hf, hf', hwithin⟩ := h
  exact ⟨r, t', hf, hf', ht.trans hwithin⟩

theorem modifying {f : Target → Target} (h : t.Within (f t)) :
    Same (modify f : Build Unit) (modify f) t :=
  ⟨.ok (), f t, rfl, rfl, h⟩

theorem foldlM {f f' : β → α → Build β} (l : List α) {b : β}
    (hstep : ∀ b a t', t.Within t' → Same (f b a) (f' b a) t') :
    Same (l.foldlM f b) (l.foldlM f' b) t := by
  induction l generalizing b t with
  | nil => exact pure b t
  | cons a l ih =>
    rw [List.foldlM_cons, List.foldlM_cons]
    refine (hstep b a t (.refl t)).bind fun b' t' ht' => ?_
    exact ih fun b a t'' ht'' => hstep b a t'' (ht'.trans ht'')

theorem mapM {f f' : α → Build β} (l : List α)
    (hstep : ∀ a t', t.Within t' → Same (f a) (f' a) t') : Same (l.mapM f) (l.mapM f') t := by
  induction l generalizing t with
  | nil =>
    rw [List.mapM_nil, List.mapM_nil]
    exact pure [] t
  | cons a l ih =>
    rw [List.mapM_cons, List.mapM_cons]
    refine (hstep a t (.refl t)).bind fun b t' ht' => ?_
    refine (ih fun a t'' ht'' => hstep a t'' (ht'.trans ht'')).bind fun bs t'' _ => ?_
    exact pure _ t''

theorem forM {f f' : α → Build Unit} (l : List α)
    (hstep : ∀ a t', t.Within t' → Same (f a) (f' a) t') : Same (l.forM f) (l.forM f') t := by
  induction l generalizing t with
  | nil => exact pure () t
  | cons a l ih =>
    change Same (f a >>= fun _ => l.forM f) (f' a >>= fun _ => l.forM f') t
    refine (hstep a t (.refl t)).bind fun _ t' ht' => ?_
    exact ih fun a t'' ht'' => hstep a t'' (ht'.trans ht'')

end Same

namespace Lowering

open Target

/-! ## References to types -/

/-- The reference to the type that a node defines, with the references that it makes in turn left
open. -/
def typeRefWith (refer : Refer) (options : ExportOptions) (g : Graph) : Refer :=
  fun node owner => do
    match (g.nodeAt node).payload with
    | .builtin primitive => return .primitive primitive
    | _ =>
      match (← get).typeOf? node with
      | some id => return .decl id
      | none =>
        match (g.nodeAt node).name with
        | some name =>
          let ns := (g.scopeAt (g.nodeAt node).scope).ns
          let _ ← exportWith refer options g ns
          match (← get).typeOf? node with
          | some id => return .decl id
          | none => throw (.unexported name (g.location node))
        | none =>
          let (target, id) := (← get).addTypeOf node (TypeDecl.ofSchema owner none .interface)
          set target
          lowerType refer g node id owner
          return .decl id

/-- References that go as deep as `depth`, and from there on are made by `bottom`. -/
def unrolled (bottom : Refer) (options : ExportOptions) (g : Graph) : Nat → Refer
  | 0 => bottom
  | depth + 1 => typeRefWith (unrolled bottom options g depth) options g

/-- The two ways to refer to types come to the same from every target with less than `m` left to
do. -/
def Agree (g : Graph) (m : Nat) (refer refer' : Refer) : Prop :=
  ∀ node owner t, t.unfinished g < m → Same (refer node owner) (refer' node owner) t

variable {g : Graph} {options : ExportOptions} {m : Nat} {refer refer' : Refer} {owner : ModuleId}
  {t : Target}

theorem typeRef_succ (options : ExportOptions) (g : Graph) (fuel : Nat) :
    typeRef options g (fuel + 1) = typeRefWith (typeRef options g fuel) options g :=
  rfl

namespace Agree

theorem within (h : Agree g m refer refer') (node : NodeId) (owner : ModuleId)
    (ht : t.unfinished g < m) {t' : Target} (hwithin : t.Within t') :
    Same (refer node owner) (refer' node owner) t' :=
  h node owner t' (Nat.lt_of_le_of_lt (hwithin.unfinished_le g) ht)

theorem referOr (h : Agree g m refer refer') (fallback : Primitive) (node : Option NodeId)
    (ht : t.unfinished g < m) :
    Same (Lowering.referOr refer fallback node owner) (Lowering.referOr refer' fallback node owner)
      t := by
  cases node with
  | none => exact .pure _ t
  | some node => exact h node owner t ht

theorem elementMember (h : Agree g m refer refer') (c : Contribution) (ht : t.unfinished g < m) :
    Same (Lowering.elementMember refer g owner c) (Lowering.elementMember refer' g owner c) t :=
  (h.referOr .any _ ht).bind fun _ t' _ => .pure _ t'

theorem attributeMember (h : Agree g m refer refer') (c : Contribution) (ht : t.unfinished g < m) :
    Same (Lowering.attributeMember refer g owner c) (Lowering.attributeMember refer' g owner c) t :=
  (h.referOr .string _ ht).bind fun _ t' _ => .pure _ t'

theorem members (h : Agree g m refer refer') (content : List Contribution) (before : List Member)
    (ht : t.unfinished g < m) :
    Same (Lowering.members refer g owner content before)
      (Lowering.members refer' g owner content before) t := by
  refine Same.foldlM content fun ms c t' ht' => ?_
  have hlt := Nat.lt_of_le_of_lt (ht'.unfinished_le g) ht
  extract_lets
  split
  · exact (h.attributeMember c hlt).bind fun _ t'' _ => .pure _ t''
  · exact (h.elementMember c hlt).bind fun _ t'' _ => .pure _ t''

end Agree

theorem literalUnion_same (owner : ModuleId) (values : List String) (t : Target) :
    Same (literalUnion owner values) (literalUnion owner values) t :=
  .get (.set ⟨List.Subset.refl _, List.Subset.refl _⟩ (.pure _ _))

namespace Agree

theorem baseAndContent (h : Agree g m refer refer') (id : NodeId) (ht : t.unfinished g < m) :
    Same (Lowering.baseAndContent refer g id owner) (Lowering.baseAndContent refer' g id owner) t := by
  unfold Lowering.baseAndContent
  split
  · exact .pure _ t
  · split
    · simp only
      split
      · split
        · exact (h _ owner t ht).bind fun _ t' _ => .pure _ t'
        · split
          · exact (h.referOr .string _ ht).bind fun _ t' _ => .pure _ t'
          · exact (literalUnion_same owner _ t).bind fun _ t' _ => .pure _ t'
      · split
        · exact (h _ owner t ht).bind fun _ t' _ => .pure _ t'
        · exact .pure _ t
    · exact .pure _ t

theorem lowerComplex (h : Agree g m refer refer') (id : NodeId) (type : TypeId)
    (ht : t.unfinished g < m) :
    Same (Lowering.lowerComplex refer g id type owner) (Lowering.lowerComplex refer' g id type owner)
      t := by
  refine (h.baseAndContent id ht).bind fun baseAndText t' ht' => ?_
  have hlt := Nat.lt_of_le_of_lt (ht'.unfinished_le g) ht
  refine (h.members (contentOf g id) baseAndText.2 hlt).bind fun content t'' _ => ?_
  exact .modifying ⟨List.Subset.refl _, List.Subset.refl _⟩

theorem simpleBody (h : Agree g m refer refer') (id : NodeId) (content : Option Payload)
    (ht : t.unfinished g < m) :
    Same (Lowering.simpleBody refer id owner content) (Lowering.simpleBody refer' id owner content)
      t := by
  unfold Lowering.simpleBody
  split
  · split
    · exact (h.referOr .any _ ht).bind fun _ t' _ => .pure _ t'
    · exact .pure _ t
  · exact (h.referOr .string _ ht).bind fun _ t' _ => .pure _ t'
  · exact (Same.mapM _ fun node t' ht' => h.within node owner ht ht').bind fun _ t' _ => .pure _ t'
  · exact .pure _ t

theorem lowerSimple (h : Agree g m refer refer') (id : NodeId) (type : TypeId)
    (ht : t.unfinished g < m) :
    Same (Lowering.lowerSimple refer g id type owner) (Lowering.lowerSimple refer' g id type owner)
      t := by
  refine (h.simpleBody id _ ht).bind fun body t' _ => ?_
  exact .modifying ⟨List.Subset.refl _, List.Subset.refl _⟩

theorem lowerType (h : Agree g m refer refer') (id : NodeId) (type : TypeId)
    (ht : t.unfinished g < m) :
    Same (Lowering.lowerType refer g id type owner) (Lowering.lowerType refer' g id type owner) t := by
  unfold Lowering.lowerType
  split
  · exact h.lowerComplex id type ht
  · exact h.lowerSimple id type ht
  · exact .pure _ t

theorem addDocumentType (h : Agree g m refer refer') (options : ExportOptions) (ns : NamespaceId)
    (ht : t.unfinished g < m) :
    Same (Lowering.addDocumentType refer options g ns owner)
      (Lowering.addDocumentType refer' options g ns owner) t := by
  unfold Lowering.addDocumentType
  simp only
  split
  · exact .pure _ t
  · refine (Same.mapM _ fun d t' ht' => ?_).bind fun ms t' _ => ?_
    · exact h.elementMember _ (Nat.lt_of_le_of_lt (ht'.unfinished_le g) ht)
    · exact .modifying ⟨List.Subset.refl _, List.Subset.refl _⟩

end Agree

theorem reserve_same (g : Graph) (owner : ModuleId) (types : List (NodeId × String)) (t : Target) :
    Same (reserve g owner types) (reserve g owner types) t :=
  Same.mapM types fun _ _ _ =>
    .get (.set ⟨List.subset_cons_self _ _, List.Subset.refl _⟩ (.pure _ _))

theorem moduleFor_within (t : Target) (g : Graph) (ns : NamespaceId) :
    (t.moduleFor g ns).1.types = t.types ∧ (t.moduleFor g ns).1.exported = t.exported := by
  unfold moduleFor
  split <;> exact ⟨rfl, rfl⟩

/-- The references that an export makes are made when its namespace has been begun. -/
theorem Agree.exportWith (h : Agree g m refer refer') (options : ExportOptions) {ns : NamespaceId}
    (hns : ns < g.namespaces.size) (ht : t.unfinished g < m + 1) :
    Same (Lowering.exportWith refer options g ns) (Lowering.exportWith refer' options g ns) t := by
  obtain ⟨htypes, hexported⟩ := moduleFor_within t g ns
  refine .get ?_
  generalize t.moduleFor g ns = found at htypes hexported ⊢
  obtain ⟨t₁, owner⟩ := found
  simp only at htypes hexported ⊢
  have hwithin : t.Within t₁ := ⟨htypes ▸ List.Subset.refl _, hexported ▸ List.Subset.refl _⟩
  refine .set hwithin ?_
  split
  · exact .pure _ _
  · rename_i hnew
    have hfree : ns ∉ t₁.exported := by
      intro hmem
      exact hnew (List.contains_iff_mem.mpr hmem)
    -- the namespace has been begun now, so less is left to do
    have hlt : unfinished g { t₁ with exported := ns :: t₁.exported } < m := by
      have hbegun : unfinished g { t₁ with exported := ns :: t₁.exported } < unfinished g t₁ :=
        Nat.add_lt_add_left (absentBelow_cons_lt hns hfree) _
      have hle := hwithin.unfinished_le g
      omega
    refine .set ⟨List.Subset.refl _, List.subset_cons_self _ _⟩ ?_
    refine (reserve_same g owner _ _).bind fun reserved t₂ ht₂ => ?_
    have hlt₂ := Nat.lt_of_le_of_lt (ht₂.unfinished_le g) hlt
    refine (Same.forM reserved fun e t₃ ht₃ => ?_).bind fun _ t₃ ht₃ => ?_
    · exact h.lowerType e.1 e.2 (Nat.lt_of_le_of_lt (ht₃.unfinished_le g) hlt₂)
    · have hlt₃ := Nat.lt_of_le_of_lt (ht₃.unfinished_le g) hlt₂
      exact (h.addDocumentType options ns hlt₃).bind fun _ t₄ _ => .pure _ t₄

/-- The references that a reference makes are made when less is left to do. -/
theorem Agree.typeRefWith (hg : g.Sound) (h : Agree g m refer refer') (options : ExportOptions) :
    Agree g (m + 1) (typeRefWith refer options g) (typeRefWith refer' options g) := by
  intro node owner t ht
  unfold Lowering.typeRefWith
  split
  · exact .pure _ t
  · rename_i hbuiltin
    refine .get ?_
    split
    · exact .pure _ t
    · rename_i hfree
      split
      · rename_i name hname
        have hnode : node < g.nodes.size := by
          by_contra hge
          rw [Graph.nodeAt_of_size_le (Nat.le_of_not_lt hge)] at hname
          cases hname
        have hns := hg.registry.ns_lt _ (hg.tree.scope_lt node hnode)
        refine (h.exportWith options hns ht).bind fun _ t' _ => .get ?_
        split
        · exact .pure _ t'
        · exact .fails _ t'
      · refine .get ?_
        refine .set ⟨List.subset_cons_self _ _, List.Subset.refl _⟩ ?_
        rcases Nat.lt_or_ge node g.nodes.size with hnode | hge
        · have hlt := unfinished_addTypeOf (g := g) (TypeDecl.ofSchema owner none .interface) hnode
            (typeOf?_eq_none.mp hfree)
          refine (h.lowerType node _ ?_).bind fun _ t' _ => .pure _ t'
          exact Nat.lt_of_lt_of_le hlt (Nat.le_of_lt_succ ht)
        · -- what is no node is no type, and there is nothing to lower
          have htag : (g.nodeAt node).tag = .schema := by
            rw [Graph.nodeAt_of_size_le hge]
            rfl
          unfold Lowering.lowerType
          rw [htag]
          exact (Same.pure () _).bind fun _ t' _ => .pure _ t'

/-- As much is left to do as the bound allows for, so two ways that agree below it are the same. -/
theorem Agree.eq (h : Agree g (depthLimit g) refer refer') : refer = refer' := by
  funext node owner t
  exact (h node owner t (unfinished_lt_depthLimit g t)).run_eq

/-- How the references at the bottom are made does not matter at targets with less than the depth
left to do. -/
theorem unrolled_agree (hg : g.Sound) (options : ExportOptions) (bottom bottom' : Refer)
    (depth : Nat) :
    Agree g depth (unrolled bottom options g depth) (unrolled bottom' options g depth) := by
  induction depth with
  | zero => exact fun _ _ _ ht => absurd ht (Nat.not_lt_zero _)
  | succ depth ih => exact ih.typeRefWith hg options

theorem unrolled_add (bottom : Refer) (options : ExportOptions) (g : Graph) (depth more : Nat) :
    unrolled bottom options g (depth + more) =
      unrolled (unrolled bottom options g more) options g depth := by
  induction depth with
  | zero => rw [Nat.zero_add, unrolled]
  | succ depth ih => rw [Nat.succ_add, unrolled, ih, unrolled]

theorem typeRef_eq_unrolled (options : ExportOptions) (g : Graph) (fuel : Nat) :
    typeRef options g fuel = unrolled (typeRef options g 0) options g fuel := by
  induction fuel with
  | zero => rfl
  | succ fuel ih => rw [typeRef_succ, unrolled, ← ih]

/-- Deeper than the bound no reference is made. -/
theorem unrolled_eq_typeRef (hg : g.Sound) (options : ExportOptions) (bottom : Refer) {depth : Nat}
    (hdepth : depthLimit g ≤ depth) :
    unrolled bottom options g depth = typeRef options g (depthLimit g) := by
  obtain ⟨more, rfl⟩ := Nat.exists_eq_add_of_le hdepth
  rw [unrolled_add, typeRef_eq_unrolled]
  exact (unrolled_agree hg options _ _ (depthLimit g)).eq

/-- The bound makes no difference: references with it are references without. -/
theorem typeRef_eq_typeRefWith (hg : g.Sound) (options : ExportOptions) :
    typeRef options g (depthLimit g) =
      typeRefWith (typeRef options g (depthLimit g)) options g := by
  have hdeeper := unrolled_eq_typeRef hg options (typeRef options g 0) (Nat.le_succ (depthLimit g))
  rw [unrolled, ← typeRef_eq_unrolled] at hdeeper
  exact hdeeper.symm

/-- There is one way to refer to types that calls itself. -/
theorem eq_of_eq_typeRefWith (hg : g.Sound) (h : refer = typeRefWith refer options g)
    (h' : refer' = typeRefWith refer' options g) : refer = refer' := by
  have hagree : ∀ m, Agree g m refer refer' := by
    intro m
    induction m with
    | zero => exact fun _ _ _ ht => absurd ht (Nat.not_lt_zero _)
    | succ m ih =>
      have hnext := ih.typeRefWith hg options
      rw [← h, ← h'] at hnext
      exact hnext
  exact (hagree (depthLimit g)).eq

/-! ## Groups -/

/-- The elements and attributes of a scope, with the expansion of groups left open. -/
def expandWith (g : Graph) (recur : ScopeId → Occurrence → List NodeId → List Contribution)
    (scope : ScopeId) (factor : Occurrence) (path : List NodeId) : List Contribution :=
  (g.scopeAt scope).members.flatMap fun d =>
    let occurs := d.occurs.times factor
    match d.space with
    | .element | .attr => [⟨d, occurs⟩]
    | .groupRef | .attrGroupRef =>
      match referredGroup? g d.node with
      | none => []
      | some group =>
        if path.contains group then []
        else
          match (g.nodeAt group).ownScope with
          | some inner => recur inner occurs (group :: path)
          | none => []
    | .type | .group | .attrGroup => []

/-- The expansion of a scope goes on with that of a group, where `path` lists the groups that are
being expanded. -/
def Enters (g : Graph) (path : List NodeId) (scope : ScopeId) (group : NodeId) (inner : ScopeId) :
    Prop :=
  group ∉ path ∧ (g.nodeAt group).ownScope = some inner ∧
    ∃ d ∈ (g.scopeAt scope).members, (d.space = .groupRef ∨ d.space = .attrGroupRef) ∧
      referredGroup? g d.node = some group

instance (g : Graph) (path : List NodeId) (scope : ScopeId) (group : NodeId) (inner : ScopeId) :
    Decidable (Enters g path scope group inner) :=
  inferInstanceAs (Decidable (_ ∧ _ ∧ _))

/-- The scopes that are expanded for the content of a node, each with the path that leads there. -/
inductive Entered (g : Graph) (id : NodeId) : ScopeId → List NodeId → Prop
  | start {own : ScopeId} (hown : (g.nodeAt id).ownScope = some own) : Entered g id own [id]
  | step {scope inner : ScopeId} {path : List NodeId} {group : NodeId}
      (h : Entered g id scope path) (henters : Enters g path scope group inner) :
      Entered g id inner (group :: path)

variable {path : List NodeId} {scope inner : ScopeId} {group id : NodeId} {factor : Occurrence}

theorem Enters.absentBelow_lt (h : Enters g path scope group inner) :
    absentBelow g.nodes.size (group :: path) < absentBelow g.nodes.size path := by
  obtain ⟨hfree, hown, _⟩ := h
  refine absentBelow_cons_lt ?_ hfree
  by_contra hge
  rw [Graph.nodeAt_of_size_le (Nat.le_of_not_lt hge)] at hown
  cases hown

theorem Entered.nodup (h : Entered g id scope path) : path.Nodup := by
  induction h with
  | start => exact List.nodup_singleton id
  | step _ henters ih => exact List.nodup_cons.mpr ⟨henters.1, ih⟩

/-- Only groups that are entered are expanded. -/
theorem expandWith_congr {f f' : ScopeId → Occurrence → List NodeId → List Contribution}
    (h : ∀ group inner factor, Enters g path scope group inner →
      f inner factor (group :: path) = f' inner factor (group :: path)) :
    expandWith g f scope factor path = expandWith g f' scope factor path := by
  unfold expandWith
  refine List.flatMap_congr fun d hd => ?_
  have hgroup : d.space = .groupRef ∨ d.space = .attrGroupRef → ∀ group inner,
      referredGroup? g d.node = some group → ¬ path.contains group = true →
      (g.nodeAt group).ownScope = some inner →
      f inner (d.occurs.times factor) (group :: path) =
        f' inner (d.occurs.times factor) (group :: path) := by
    intro hspace group inner hrefers hpath hown
    have hfree : group ∉ path := fun hmem => hpath (List.contains_iff_mem.mpr hmem)
    exact h group inner _ ⟨hfree, hown, d, hd, hspace, hrefers⟩
  simp only
  split
  case h_3 hspace | h_4 hspace =>
    split
    · rfl
    · rename_i group hrefers
      split
      · rfl
      · rename_i hpath
        split
        · rename_i inner hown
          exact hgroup (by rw [hspace]; simp) group inner hrefers hpath hown
        · rfl
  all_goals rfl

theorem expand_succ_eq (g : Graph) (fuel : Nat) :
    expand g (fuel + 1) = expandWith g (expand g fuel) :=
  rfl

/-- A function that calls itself on the scopes that are entered expands them. -/
theorem Entered.eq_expand {f : ScopeId → Occurrence → List NodeId → List Contribution}
    (hf : ∀ scope factor path, Entered g id scope path →
      f scope factor path = expandWith g f scope factor path) (fuel : Nat) :
    ∀ scope factor path, Entered g id scope path → absentBelow g.nodes.size path < fuel →
      f scope factor path = expand g fuel scope factor path := by
  induction fuel with
  | zero => exact fun _ _ _ _ hfuel => absurd hfuel (Nat.not_lt_zero _)
  | succ fuel ih =>
    intro scope factor path hentered hfuel
    rw [hf scope factor path hentered, expand_succ_eq]
    refine expandWith_congr fun group inner factor' henters => ?_
    refine ih inner factor' (group :: path) (hentered.step henters) ?_
    exact Nat.lt_of_lt_of_le henters.absentBelow_lt (Nat.le_of_lt_succ hfuel)

/-- The bound makes no difference: expansion with it is expansion without. -/
theorem expand_eq_expandWith {fuel : Nat} (hfuel : absentBelow g.nodes.size path < fuel) :
    expand g fuel scope factor path = expandWith g (expand g fuel) scope factor path := by
  induction fuel generalizing scope factor path with
  | zero => exact absurd hfuel (Nat.not_lt_zero _)
  | succ fuel ih =>
    conv => lhs; rw [expand_succ_eq]
    refine expandWith_congr fun group inner factor' henters => ?_
    rw [expand_succ_eq]
    exact ih (Nat.lt_of_lt_of_le henters.absentBelow_lt (Nat.le_of_lt_succ hfuel))

/-! ## Exports -/

/-- Exports come to an end in every graph that documents have been read or loaded into. There is one
way to refer to types that calls itself without a bound, and an export uses it; whatever references
would do beyond the bound, the export is the same. The references that a reference makes are made
when fewer nodes are without a declaration or fewer namespaces have not been begun, so the measure is
`unfinished`. The content of a type is what any function gives that expands the scopes which are
entered by calling itself. No path of groups holds one twice, and each group that is entered leaves
fewer that can be. -/
theorem export_terminates (policy : RepeatPolicy) (calls : List Graph.Call) (options : ExportOptions)
    {g : Graph} (hg : calls.foldl Graph.Call.perform (Graph.initial policy) = g) :
    (∀ refer, refer = typeRefWith refer options g ↔ refer = typeRef options g (depthLimit g)) ∧
    (∀ bottom depth ns, depthLimit g ≤ depth →
      exportWith (unrolled bottom options g depth) options g ns = exportNamespace options g ns) ∧
    (∀ refer refer' t, Agree g (t.unfinished g) refer refer' → ∀ node owner,
      Same (typeRefWith refer options g node owner) (typeRefWith refer' options g node owner) t) ∧
    ∀ id own, (g.nodeAt id).ownScope = some own →
      (∀ f, (∀ scope factor path, Entered g id scope path →
        f scope factor path = expandWith g f scope factor path) → f own .once [id] = contentOf g id) ∧
      ∀ scope path, Entered g id scope path → path.Nodup ∧
        (∀ factor, expand g (g.nodes.size + 1) scope factor path =
          expandWith g (expand g (g.nodes.size + 1)) scope factor path) ∧
        ∀ group inner, Enters g path scope group inner →
          absentBelow g.nodes.size (group :: path) < absentBelow g.nodes.size path := by
  have hsound : g.Sound := hg ▸ ((Graph.intact_initial policy).calls calls).sound
  have hfixed := typeRef_eq_typeRefWith hsound options
  have hfuel : ∀ path, absentBelow g.nodes.size path < g.nodes.size + 1 :=
    fun path => Nat.lt_succ_of_le (absentBelow_le _ _)
  refine ⟨fun refer => ⟨fun h => ?_, fun h => ?_⟩, fun bottom depth ns hdepth => ?_,
    fun refer refer' t hagree node owner => ?_, fun id own hown => ⟨fun f hf => ?_, ?_⟩⟩
  · exact eq_of_eq_typeRefWith hsound h hfixed
  · rw [h]
    exact hfixed
  · rw [unrolled_eq_typeRef hsound options bottom hdepth]
    rfl
  · exact hagree.typeRefWith hsound options node owner t (Nat.lt_succ_self _)
  · rw [contentOf, hown]
    exact Entered.eq_expand hf _ own .once [id] (.start hown) (hfuel [id])
  · intro scope path hentered
    exact ⟨hentered.nodup, fun factor => expand_eq_expandWith (hfuel path),
      fun group inner henters => henters.absentBelow_lt⟩

/-- Two groups that refer to each other, and a type made of one of them. -/
def knotDocument : String :=
  "<x:schema xmlns:x='http://www.w3.org/2001/XMLSchema'>" ++
    "<x:group name='G'><x:choice><x:group ref='H'/></x:choice></x:group>" ++
    "<x:group name='H'><x:choice><x:group ref='G'/></x:choice></x:group>" ++
    "<x:complexType name='T'><x:group ref='G'/></x:complexType></x:schema>"

/-- The graph that the document is loaded into. -/
def knotGraph : Graph :=
  [Graph.Call.load (fun _ => .ok knotDocument) 1 "a" none].foldl Graph.Call.perform
    (Graph.initial .standard)

set_option maxRecDepth 100000 in
theorem export_terminates_example :
    Entered knotGraph 57 4 [54, 51, 57] ∧ [54, 51, 57].Nodup ∧
    absentBelow knotGraph.nodes.size [54, 51, 57] < absentBelow knotGraph.nodes.size [51, 57] ∧
    expand knotGraph (knotGraph.nodes.size + 1) 5 .once [57] = contentOf knotGraph 57 ∧
    ∀ bottom ns, exportWith (unrolled bottom {} knotGraph (depthLimit knotGraph + 1)) {} knotGraph ns =
      exportNamespace {} knotGraph ns := by
  have heval : ((Loading.load (m := Id) (fun _ => .ok knotDocument) 1 (Graph.initial .standard) "a"
        none).toOption.map fun r => decide ((r.1.nodeAt 57).ownScope = some 5 ∧
      Enters r.1 [57] 5 51 3 ∧ Enters r.1 [51, 57] 3 54 4)) = some true :=
    Loading.load_of_letters (fun _ => .append (.append (.append (.ok _) _) _) _) (by decide +kernel)
  obtain ⟨r, hload, hresult⟩ := Sequencing.eq_ok_of_toOption heval
  have hgraph : knotGraph = r.1 := by
    rw [knotGraph, List.foldl_cons, List.foldl_nil, Graph.Call.perform, hload]
    rfl
  rw [← hgraph] at hresult
  obtain ⟨hown, hfirst, hsecond⟩ := of_decide_eq_true hresult
  have hentered : Entered knotGraph 57 3 [51, 57] := (Entered.start hown).step hfirst
  obtain ⟨_, hdeeper, _, hgroups⟩ :=
    export_terminates .standard [.load (fun _ => .ok knotDocument) 1 "a" none] {} (g := knotGraph) rfl
  obtain ⟨hcontent, hpaths⟩ := hgroups 57 5 hown
  refine ⟨hentered.step hsecond, (hpaths 4 _ (hentered.step hsecond)).1,
    (hpaths 3 _ hentered).2.2 54 4 hsecond, hcontent _ fun scope factor path h => ?_, ?_⟩
  · exact (hpaths scope path h).2.1 factor
  · exact fun bottom ns => hdeeper bottom _ ns (Nat.le_add_right _ 1)

end Lowering

end XsdTypes
