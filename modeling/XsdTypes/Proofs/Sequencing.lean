import Mathlib.Tactic

/-!
# Steps put together

What is known of the parts of a computation that has succeeded: one lemma for each way of putting
steps together that may fail. A fold over a list goes on step by step, so what every step keeps is
kept by the whole fold.
-/

namespace XsdTypes.Sequencing

variable {ε α β : Type}

theorem bind_eq_ok {x : Except ε α} {f : α → Except ε β} {b : β} :
    (x >>= f) = .ok b ↔ ∃ a, x = .ok a ∧ f a = .ok b := by
  cases x with
  | error e =>
    constructor
    · intro h
      cases h
    · rintro ⟨a, ha, _⟩
      cases ha
  | ok a =>
    constructor
    · intro h
      exact ⟨a, rfl, h⟩
    · rintro ⟨a', ha, hf⟩
      cases ha
      exact hf

theorem bind_eq_error {x : Except ε α} {f : α → Except ε β} {e : ε} :
    (x >>= f) = .error e ↔ x = .error e ∨ ∃ a, x = .ok a ∧ f a = .error e := by
  cases x with
  | error e' =>
    constructor
    · intro h
      cases h
      exact Or.inl rfl
    · rintro (h | ⟨a, ha, _⟩)
      · cases h
        rfl
      · cases ha
  | ok a =>
    constructor
    · intro h
      exact Or.inr ⟨a, rfl, h⟩
    · rintro (h | ⟨a', ha, hf⟩)
      · cases h
      · cases ha
        exact hf

theorem map_eq_ok {x : Except ε α} {f : α → β} {b : β} :
    x.map f = .ok b ↔ ∃ a, x = .ok a ∧ f a = b := by
  cases x <;> simp [Except.map]

theorem map_eq_error {x : Except ε α} {f : α → β} {e : ε} : x.map f = .error e ↔ x = .error e := by
  cases x <;> simp [Except.map]

/-- A computation has succeeded if something can be read off its result. -/
theorem eq_ok_of_toOption {x : Except ε α} {f : α → β} {b : β} (h : x.toOption.map f = some b) :
    ∃ a, x = .ok a ∧ f a = b := by
  cases x with
  | error e => cases h
  | ok a => exact ⟨a, rfl, Option.some.inj h⟩

/-- A list is gone through with success if every step succeeds. -/
theorem mapM_eq_ok {f : α → Except ε β} {l : List α} {l' : List β} :
    l.mapM f = .ok l' ↔ List.Forall₂ (fun a b => f a = .ok b) l l' := by
  induction l generalizing l' with
  | nil =>
    rw [List.mapM_nil, List.forall₂_nil_left_iff]
    constructor
    · intro h
      cases h
      rfl
    · rintro rfl
      rfl
  | cons a l ih =>
    rw [List.mapM_cons, bind_eq_ok, List.forall₂_cons_left_iff]
    constructor
    · rintro ⟨b, hb, hrest⟩
      obtain ⟨bs, hbs, hpure⟩ := bind_eq_ok.mp hrest
      cases hpure
      exact ⟨b, bs, hb, ih.mp hbs, rfl⟩
    · rintro ⟨b, bs, hb, hbs, rfl⟩
      exact ⟨b, hb, bind_eq_ok.mpr ⟨bs, ih.mpr hbs, rfl⟩⟩

theorem exists_of_forall₂ {R : α → β → Prop} {l : List α} {l' : List β} {a : α}
    (h : List.Forall₂ R l l') (ha : a ∈ l) : ∃ b ∈ l', R a b := by
  induction h with
  | nil => cases ha
  | cons hb _ ih =>
    rcases List.mem_cons.mp ha with rfl | hmem
    · exact ⟨_, List.mem_cons_self, hb⟩
    · obtain ⟨b, hmem', hb'⟩ := ih hmem
      exact ⟨b, List.mem_cons_of_mem _ hmem', hb'⟩

theorem exists_of_mapM_eq_ok {f : α → Except ε β} {l : List α} {l' : List β} {a : α}
    (h : l.mapM f = .ok l') (ha : a ∈ l) : ∃ b ∈ l', f a = .ok b :=
  exists_of_forall₂ (mapM_eq_ok.mp h) ha

theorem mapM_eq_error {f : α → Except ε β} {l : List α} {e : ε} (h : l.mapM f = .error e) :
    ∃ a ∈ l, f a = .error e := by
  induction l with
  | nil => cases h
  | cons a l ih =>
    rw [List.mapM_cons] at h
    rcases bind_eq_error.mp h with ha | ⟨b, _, hrest⟩
    · exact ⟨a, List.mem_cons_self, ha⟩
    · rcases bind_eq_error.mp hrest with hl | ⟨_, _, hpure⟩
      · obtain ⟨a', ha', he⟩ := ih hl
        exact ⟨a', List.mem_cons_of_mem _ ha', he⟩
      · cases hpure

/-- What becomes of each result may be put off to the end. -/
theorem mapM_map_zipWith {γ : Type} (f : α → Except ε β) (g : α → β → γ) (l : List α) :
    (l.mapM fun a => (f a).map (g a)) = (l.mapM f).map (List.zipWith g l) := by
  induction l with
  | nil => rfl
  | cons a l ih =>
    rw [List.mapM_cons, List.mapM_cons, ih]
    cases f a with
    | error e => rfl
    | ok b => cases l.mapM f <;> rfl

/-- What every step keeps is kept by a fold that succeeds. -/
theorem foldlM_keeps {P : β → Prop} {f : β → α → Except ε β} {l : List α}
    (hstep : ∀ b, ∀ a ∈ l, ∀ b', P b → f b a = .ok b' → P b') :
    ∀ {b b' : β}, P b → l.foldlM f b = .ok b' → P b' := by
  induction l with
  | nil =>
    intro b b' hb h
    cases h
    exact hb
  | cons a l ih =>
    intro b b' hb h
    rw [List.foldlM_cons, bind_eq_ok] at h
    obtain ⟨c, hc, hrest⟩ := h
    refine ih (fun b a' ha' => hstep b a' (List.mem_cons_of_mem _ ha')) ?_ hrest
    exact hstep b a List.mem_cons_self c hb hc

/-- The result is as `P` says if the computation succeeds, and the error as `Q` says if it fails. -/
def Yields (P : α → Prop) (Q : ε → Prop) : Except ε α → Prop
  | .ok a => P a
  | .error e => Q e

theorem Yields.bind {P : α → Prop} {P' : β → Prop} {Q : ε → Prop} {x : Except ε α}
    {f : α → Except ε β} (hx : Yields P Q x) (hf : ∀ a, P a → Yields P' Q (f a)) :
    Yields P' Q (x >>= f) := by
  cases x with
  | error e => exact hx
  | ok a => exact hf a hx

/-- What every step keeps, whether it succeeds or fails, is kept by a fold. -/
theorem Yields.foldlM {P : β → Prop} {Q : ε → Prop} {f : β → α → Except ε β}
    (hstep : ∀ b a, P b → Yields P Q (f b a)) (l : List α) {b : β} (hb : P b) :
    Yields P Q (l.foldlM f b) := by
  induction l generalizing b with
  | nil => exact hb
  | cons a l ih =>
    rw [List.foldlM_cons]
    exact (hstep b a hb).bind fun b' hb' => ih hb'

/-- A fold of which each step establishes something for one element, and keeps it for all others,
establishes it for all elements. -/
theorem foldl_establishes {I : β → Prop} {P : β → α → Prop} {f : β → α → β} {l : List α}
    (hstep : ∀ b, I b → ∀ a ∈ l, I (f b a) ∧ ∀ a', a' = a ∨ P b a' → P (f b a) a') :
    ∀ {b : β}, I b → I (l.foldl f b) ∧ ∀ a ∈ l, P (l.foldl f b) a := by
  have haux : ∀ rest, rest ⊆ l → ∀ b, I b →
      I (rest.foldl f b) ∧ ∀ a, a ∈ rest ∨ P b a → P (rest.foldl f b) a := by
    intro rest
    induction rest with
    | nil => exact fun _ b hb => ⟨hb, fun a h => h.resolve_left nofun⟩
    | cons a rest ih =>
      intro hsub b hb
      obtain ⟨hkept, hall⟩ := hstep b hb a (hsub List.mem_cons_self)
      obtain ⟨hrest, hdone⟩ := ih (fun x hx => hsub (List.mem_cons_of_mem _ hx)) (f b a) hkept
      refine ⟨hrest, fun a' ha' => hdone a' ?_⟩
      rcases ha' with hmem | hold
      · rcases List.mem_cons.mp hmem with heq | hmem
        · exact Or.inr (hall a' (Or.inl heq))
        · exact Or.inl hmem
      · exact Or.inr (hall a' (Or.inr hold))
  intro b hb
  obtain ⟨hkept, hall⟩ := haux l (List.Subset.refl l) b hb
  exact ⟨hkept, fun a ha => hall a (Or.inl ha)⟩

/-- A fold of steps that change nothing changes nothing. -/
theorem foldl_eq_self {f : β → α → β} {b : β} {l : List α} (h : ∀ a ∈ l, f b a = b) :
    l.foldl f b = b := by
  induction l with
  | nil => rfl
  | cons a l ih =>
    rw [List.foldl_cons, h a List.mem_cons_self]
    exact ih fun a' ha' => h a' (List.mem_cons_of_mem a ha')

/-! ## Steps with a state -/

theorem bind_apply {α β σ : Type} (x : StateM σ α) (f : α → StateM σ β) (s : σ) :
    (x >>= f) s = f (x s).1 (x s).2 := rfl

theorem pure_apply {α σ : Type} (a : α) (s : σ) : (pure a : StateM σ α) s = (a, s) := rfl

theorem get_bind_apply {β σ : Type} (f : σ → StateM σ β) (s : σ) :
    ((get : StateM σ σ) >>= f) s = f s s := rfl

end XsdTypes.Sequencing
