import Mathlib.Tactic
import XsdTypes.Lowering.Export

/-!
# What every step of an export keeps

An export changes its target in five ways only: it adds modules and declarations, changes
declarations and begins namespaces. Whatever each of these keeps, a whole export keeps, whether it
succeeds or fails.
-/

namespace XsdTypes

/-- The step leaves a target of which `P` holds. -/
def Leaves {α : Type} (P : Target → Prop) (x : Build α) (t : Target) : Prop :=
  P (x.run.run t).2

namespace Leaves

variable {α β : Type} {P : Target → Prop} {t t₁ : Target} {x : Build α}

theorem pure {a : α} (ht : P t) : Leaves P (Pure.pure a : Build α) t := ht

theorem fails {e : ExportError} (ht : P t) : Leaves P (throw e : Build α) t := ht

theorem bind {f : α → Build β} (h : Leaves P x t) (hf : ∀ a t', P t' → Leaves P (f a) t') :
    Leaves P (x >>= f) t := by
  unfold Leaves at h ⊢
  rw [ExceptT.run_bind, StateT.run_bind]
  generalize x.run.run t = result at h ⊢
  obtain ⟨r, t'⟩ := result
  cases r with
  | error e => exact h
  | ok a => exact hf a t' h

theorem get {f : Target → Build α} (h : Leaves P (f t) t) : Leaves P (MonadState.get >>= f) t := h

theorem set {f : Build α} (h : Leaves P f t₁) : Leaves P (MonadStateOf.set t₁ >>= fun _ => f) t := h

theorem modifying {f : Target → Target} (h : P (f t)) : Leaves P (modify f : Build Unit) t := h

theorem foldlM {f : β → α → Build β} (l : List α) {b : β}
    (hstep : ∀ b a t', P t' → Leaves P (f b a) t') (ht : P t) : Leaves P (l.foldlM f b) t := by
  induction l generalizing b t with
  | nil => exact pure ht
  | cons a l ih =>
    rw [List.foldlM_cons]
    exact (hstep b a t ht).bind fun b' t' ht' => ih ht'

theorem mapM {f : α → Build β} (l : List α) (hstep : ∀ a t', P t' → Leaves P (f a) t') (ht : P t) :
    Leaves P (l.mapM f) t := by
  induction l generalizing t with
  | nil =>
    rw [List.mapM_nil]
    exact pure ht
  | cons a l ih =>
    rw [List.mapM_cons]
    exact (hstep a t ht).bind fun b t' ht' => (ih ht').bind fun bs t'' ht'' => pure ht''

theorem forM {f : α → Build Unit} (l : List α) (hstep : ∀ a t', P t' → Leaves P (f a) t')
    (ht : P t) : Leaves P (l.forM f) t := by
  induction l generalizing t with
  | nil => exact pure ht
  | cons a l ih =>
    change Leaves P (f a >>= fun _ => l.forM f) t
    exact (hstep a t ht).bind fun _ t' ht' => ih ht'

end Leaves

namespace Lowering

/-- The ways in which a target changes keep `P`. -/
structure Stable (g : Graph) (P : Target → Prop) : Prop where
  moduleFor : ∀ t ns, P t → P (t.moduleFor g ns).1
  begins : ∀ t ns, P t → P { t with exported := ns :: t.exported }
  addType : ∀ t decl, P t → P (t.addType decl).1
  addTypeOf : ∀ t node decl, P t → P (t.addTypeOf node decl).1
  modifyType : ∀ t id f, P t → P (t.modifyType id f)

/-- To refer to a type keeps `P`. -/
def Keeps (P : Target → Prop) (refer : Refer) : Prop :=
  ∀ node owner t, P t → Leaves P (refer node owner) t

variable {g : Graph} {P : Target → Prop} {refer : Refer} {owner : ModuleId} {t : Target}

namespace Keeps

theorem referOr (h : Keeps P refer) (fallback : Primitive) (node : Option NodeId) (ht : P t) :
    Leaves P (Lowering.referOr refer fallback node owner) t := by
  cases node with
  | none => exact .pure ht
  | some node => exact h node owner t ht

theorem elementMember (h : Keeps P refer) (c : Contribution) (ht : P t) :
    Leaves P (Lowering.elementMember refer g owner c) t :=
  (h.referOr .any _ ht).bind fun _ _ ht' => .pure ht'

theorem attributeMember (h : Keeps P refer) (c : Contribution) (ht : P t) :
    Leaves P (Lowering.attributeMember refer g owner c) t :=
  (h.referOr .string _ ht).bind fun _ _ ht' => .pure ht'

theorem members (h : Keeps P refer) (content : List Contribution) (before : List Member)
    (ht : P t) : Leaves P (Lowering.members refer g owner content before) t := by
  refine .foldlM content (fun ms c t' ht' => ?_) ht
  extract_lets
  split
  · exact (h.attributeMember c ht').bind fun _ _ ht'' => .pure ht''
  · exact (h.elementMember c ht').bind fun _ _ ht'' => .pure ht''

end Keeps

theorem Stable.literalUnion (hP : Stable g P) (values : List String) (ht : P t) :
    Leaves P (Lowering.literalUnion owner values) t :=
  .get (.set (.pure (hP.addType t _ ht)))

namespace Keeps

theorem baseAndContent (hP : Stable g P) (h : Keeps P refer) (id : NodeId) (ht : P t) :
    Leaves P (Lowering.baseAndContent refer g id owner) t := by
  unfold Lowering.baseAndContent
  split
  · exact .pure ht
  · split
    · simp only
      split
      · split
        · exact (h _ owner t ht).bind fun _ _ ht' => .pure ht'
        · split
          · exact (h.referOr .string _ ht).bind fun _ _ ht' => .pure ht'
          · exact (hP.literalUnion _ ht).bind fun _ _ ht' => .pure ht'
      · split
        · exact (h _ owner t ht).bind fun _ _ ht' => .pure ht'
        · exact .pure ht
    · exact .pure ht

theorem lowerComplex (hP : Stable g P) (h : Keeps P refer) (id : NodeId) (type : TypeId)
    (ht : P t) : Leaves P (Lowering.lowerComplex refer g id type owner) t := by
  refine (baseAndContent hP h id ht).bind fun baseAndText t' ht' => ?_
  refine (h.members (contentOf g id) baseAndText.2 ht').bind fun content t'' ht'' => ?_
  exact .modifying (hP.modifyType t'' type _ ht'')

theorem simpleBody (h : Keeps P refer) (id : NodeId) (content : Option Payload) (ht : P t) :
    Leaves P (Lowering.simpleBody refer id owner content) t := by
  unfold Lowering.simpleBody
  split
  · split
    · exact (h.referOr .any _ ht).bind fun _ _ ht' => .pure ht'
    · exact .pure ht
  · exact (h.referOr .string _ ht).bind fun _ _ ht' => .pure ht'
  · exact (Leaves.mapM _ (fun node t' ht' => h node owner t' ht') ht).bind fun _ _ ht' => .pure ht'
  · exact .pure ht

theorem lowerType (hP : Stable g P) (h : Keeps P refer) (id : NodeId) (type : TypeId) (ht : P t) :
    Leaves P (Lowering.lowerType refer g id type owner) t := by
  unfold Lowering.lowerType
  split
  · exact lowerComplex hP h id type ht
  · refine (h.simpleBody id _ ht).bind fun body t' ht' => ?_
    exact .modifying (hP.modifyType t' type _ ht')
  · exact .pure ht

theorem addDocumentType (hP : Stable g P) (h : Keeps P refer) (options : ExportOptions)
    (ns : NamespaceId) (ht : P t) :
    Leaves P (Lowering.addDocumentType refer options g ns owner) t := by
  unfold Lowering.addDocumentType
  simp only
  split
  · exact .pure ht
  · refine (Leaves.mapM _ (fun d t' ht' => h.elementMember _ ht') ht).bind fun ms t' ht' => ?_
    exact .modifying (hP.addType t' _ ht')

theorem exportWith (hP : Stable g P) (h : Keeps P refer) (options : ExportOptions)
    (ns : NamespaceId) (ht : P t) : Leaves P (Lowering.exportWith refer options g ns) t := by
  have hmodule := hP.moduleFor t ns ht
  refine .get ?_
  generalize t.moduleFor g ns = found at hmodule ⊢
  obtain ⟨t₁, owner⟩ := found
  refine .set ?_
  split
  · exact .pure hmodule
  · refine .set ?_
    have hreserve : Leaves P (reserve g owner (namedTypes g ns))
        { t₁ with exported := ns :: t₁.exported } :=
      .mapM _ (fun e t' ht' => .get (.set (.pure (hP.addTypeOf t' e.1 _ ht'))))
        (hP.begins t₁ ns hmodule)
    refine hreserve.bind fun reserved t₂ ht₂ => ?_
    refine (Leaves.forM reserved (fun e t₃ ht₃ => ?_) ht₂).bind fun _ t₃ ht₃ => ?_
    · exact lowerType hP h e.1 e.2 ht₃
    · exact (addDocumentType hP h options ns ht₃).bind fun _ _ ht₄ => .pure ht₄

end Keeps

/-- To refer to a type keeps what every change to the target keeps. -/
theorem typeRef_keeps (hP : Stable g P) (options : ExportOptions) (fuel : Nat) :
    Keeps P (typeRef options g fuel) := by
  induction fuel with
  | zero => exact fun _ _ _ ht => .fails ht
  | succ fuel ih =>
    intro node owner t ht
    rw [typeRef]
    split
    · exact .pure ht
    · refine .get ?_
      split
      · exact .pure ht
      · split
        · refine (ih.exportWith hP options _ ht).bind fun _ t' ht' => .get ?_
          split
          · exact .pure ht'
          · exact .fails ht'
        · refine .get (.set ?_)
          exact (ih.lowerType hP node _ (hP.addTypeOf t node _ ht)).bind fun _ _ ht' => .pure ht'

theorem exportNamespace_keeps (hP : Stable g P) (options : ExportOptions) (ns : NamespaceId)
    (ht : P t) : Leaves P (exportNamespace options g ns) t :=
  (typeRef_keeps hP options (depthLimit g)).exportWith hP options ns ht

end Lowering

end XsdTypes
