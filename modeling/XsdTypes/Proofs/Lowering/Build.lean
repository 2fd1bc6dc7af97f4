import Mathlib.Tactic
import XsdTypes.Lowering.Target

/-!
# Steps that succeed

`Succeeds x t Q` says that the step `x` succeeds from the target `t`, with a result and a target of
which `Q` holds. There is one rule for each way in which steps are put together; the rules for lists
take an invariant that may speak of the part of the list that is done.
-/

namespace XsdTypes

/-- The step succeeds from the target, and `Q` holds of its result and of the target it leaves. -/
def Succeeds {α : Type} (x : Build α) (t : Target) (Q : α → Target → Prop) : Prop :=
  ∃ a t', x.run.run t = (.ok a, t') ∧ Q a t'

namespace Succeeds

variable {α β : Type} {t : Target} {x : Build α} {Q : α → Target → Prop}

theorem pure {a : α} (h : Q a t) : Succeeds (Pure.pure a : Build α) t Q :=
  ⟨a, t, rfl, h⟩

theorem mono {R : α → Target → Prop} (h : Succeeds x t Q) (hQ : ∀ a t', Q a t' → R a t') :
    Succeeds x t R := by
  obtain ⟨a, t', hrun, ha⟩ := h
  exact ⟨a, t', hrun, hQ a t' ha⟩

theorem bind {R : β → Target → Prop} {f : α → Build β} (h : Succeeds x t Q)
    (hf : ∀ a t', Q a t' → Succeeds (f a) t' R) : Succeeds (x >>= f) t R := by
  obtain ⟨a, t', hrun, ha⟩ := h
  obtain ⟨b, t'', hrun', hb⟩ := hf a t' ha
  refine ⟨b, t'', ?_, hb⟩
  rw [ExceptT.run_bind, StateT.run_bind, hrun]
  exact hrun'

theorem get {R : α → Target → Prop} {f : Target → Build α} (h : Succeeds (f t) t R) :
    Succeeds (MonadState.get >>= f) t R :=
  bind (Q := fun a t' => a = t ∧ t' = t) ⟨t, t, rfl, rfl, rfl⟩ fun _ _ ⟨ha, ht⟩ => ha ▸ ht ▸ h

theorem set {R : β → Target → Prop} {t₁ : Target} {f : Build β} (h : Succeeds f t₁ R) :
    Succeeds (MonadStateOf.set t₁ >>= fun _ => f) t R :=
  bind (Q := fun _ t' => t' = t₁) ⟨(), t₁, rfl, rfl⟩ fun _ _ ht => ht ▸ h

theorem modifying {R : Unit → Target → Prop} {f : Target → Target} (h : R () (f t)) :
    Succeeds (modify f : Build Unit) t R :=
  ⟨(), f t, rfl, h⟩

/-- A fold keeps what every step keeps. -/
theorem foldlM {I : List α → β → Target → Prop} {f : β → α → Build β} {l : List α} {b : β}
    (hstep : ∀ done a rest b t, l = done ++ a :: rest → I done b t →
      Succeeds (f b a) t (I (done ++ [a])))
    (h : I [] b t) : Succeeds (l.foldlM f b) t (I l) := by
  have haux : ∀ rest done b t, l = done ++ rest → I done b t →
      Succeeds (rest.foldlM f b) t (I l) := by
    intro rest
    induction rest with
    | nil =>
      intro done b t hl hI
      rw [List.append_nil] at hl
      exact pure (hl ▸ hI)
    | cons a rest ih =>
      intro done b t hl hI
      rw [List.foldlM_cons]
      refine (hstep done a rest b t hl hI).bind fun b' t' hI' => ?_
      exact ih (done ++ [a]) b' t' (by rw [hl, List.append_assoc]; rfl) hI'
  exact haux l [] b t rfl h

theorem mapM {I : List α → List β → Target → Prop} {f : α → Build β} {l : List α}
    (hstep : ∀ done a rest bs t, l = done ++ a :: rest → I done bs t →
      Succeeds (f a) t fun b => I (done ++ [a]) (bs ++ [b]))
    (h : I [] [] t) : Succeeds (l.mapM f) t (I l) := by
  have haux : ∀ rest done bs t, l = done ++ rest → I done bs t →
      Succeeds (rest.mapM f) t fun cs => I l (bs ++ cs) := by
    intro rest
    induction rest with
    | nil =>
      intro done bs t hl hI
      rw [List.append_nil] at hl
      rw [List.mapM_nil]
      exact pure (by rw [hl, List.append_nil]; exact hI)
    | cons a rest ih =>
      intro done bs t hl hI
      rw [List.mapM_cons]
      refine (hstep done a rest bs t hl hI).bind fun b t' hI' => ?_
      refine (ih (done ++ [a]) (bs ++ [b]) t' (by rw [hl, List.append_assoc]; rfl) hI').bind
        fun cs t'' hI'' => pure ?_
      rw [List.append_assoc] at hI''
      exact hI''
  exact haux l [] [] t rfl h

theorem forM {I : List α → Target → Prop} {f : α → Build Unit} {l : List α}
    (hstep : ∀ done a rest t, l = done ++ a :: rest → I done t →
      Succeeds (f a) t fun _ => I (done ++ [a]))
    (h : I [] t) : Succeeds (l.forM f) t fun _ => I l := by
  have haux : ∀ rest done t, l = done ++ rest → I done t →
      Succeeds (rest.forM f) t fun _ => I l := by
    intro rest
    induction rest with
    | nil =>
      intro done t hl hI
      rw [List.append_nil] at hl
      exact pure (hl ▸ hI)
    | cons a rest ih =>
      intro done t hl hI
      change Succeeds (f a >>= fun _ => rest.forM f) t _
      refine (hstep done a rest t hl hI).bind fun _ t' hI' => ?_
      exact ih (done ++ [a]) t' (by rw [hl, List.append_assoc]; rfl) hI'
  exact haux l [] t rfl h

end Succeeds

end XsdTypes
