import Mathlib.Tactic

/-!
# Lists with repeats

`List.eraseDups` keeps the first of the elements that are equal. A list condenses to another if only
repeats are left out of it, so that the first elements and their order stay.
-/

namespace XsdTypes

variable {α : Type} [BEq α] [LawfulBEq α] {l m l' m' : List α}

theorem eraseDups_filter (p : α → Bool) (l : List α) :
    (l.filter p).eraseDups = l.eraseDups.filter p := by
  induction hlength : l.length using Nat.strong_induction_on generalizing l with
  | _ k ih =>
    subst hlength
    cases l with
    | nil => rfl
    | cons a l =>
      have hrest := ih (l.filter fun b => !b == a).length
        (Nat.lt_succ_of_le (List.length_filter_le _ _)) _ rfl
      rw [List.eraseDups_cons]
      cases ha : p a with
      | true =>
        rw [List.filter_cons_of_pos ha, List.filter_cons_of_pos ha, List.eraseDups_cons,
          List.filter_comm, hrest]
      | false =>
        have hne : ¬ p a = true := by simp [ha]
        rw [List.filter_cons_of_neg hne, List.filter_cons_of_neg hne, ← hrest, List.filter_filter]
        congr 1
        refine List.filter_congr fun b _ => ?_
        cases hb : p b with
        | false => rfl
        | true =>
          have hba : (b == a) = false := beq_false_of_ne fun heq => by
            rw [heq, ha] at hb
            cases hb
          simp [hba]

theorem nodup_eraseDups (l : List α) : l.eraseDups.Nodup := by
  induction hlength : l.length using Nat.strong_induction_on generalizing l with
  | _ k ih =>
    subst hlength
    cases l with
    | nil => exact List.nodup_nil
    | cons a l =>
      rw [List.eraseDups_cons, List.nodup_cons]
      refine ⟨fun hmem => ?_, ih _ (Nat.lt_succ_of_le (List.length_filter_le _ _)) _ rfl⟩
      simp at hmem

theorem eraseDups_of_nodup (h : l.Nodup) : l.eraseDups = l := by
  induction l with
  | nil => rfl
  | cons a l ih =>
    obtain ⟨hnotin, hnodup⟩ := List.nodup_cons.mp h
    have hall : (l.filter fun b => !b == a) = l :=
      List.filter_eq_self.mpr fun b hb => by
        simpa using fun heq : b = a => hnotin (heq ▸ hb)
    rw [List.eraseDups_cons, hall, ih hnodup]

/-- The list `l'` is `l` with some repeats left out. -/
structure Condenses (l l' : List α) : Prop where
  sublist : l'.Sublist l
  firsts : l'.eraseDups = l.eraseDups

namespace Condenses

omit [LawfulBEq α] in
theorem refl (l : List α) : Condenses l l := ⟨.refl l, rfl⟩

omit [LawfulBEq α] in
theorem trans {l'' : List α} (h : Condenses l l') (h' : Condenses l' l'') : Condenses l l'' :=
  ⟨h'.sublist.trans h.sublist, h'.firsts.trans h.firsts⟩

theorem append (h : Condenses l l') (hm : Condenses m m') : Condenses (l ++ m) (l' ++ m') := by
  refine ⟨h.sublist.append hm.sublist, ?_⟩
  have hmem : ∀ a, a ∈ l' ↔ a ∈ l := fun a => by
    rw [← List.mem_eraseDups, h.firsts, List.mem_eraseDups]
  have hfilter : ∀ k : List α, k.removeAll l' = k.removeAll l := fun k => by
    refine List.filter_congr fun a _ => ?_
    rw [Bool.eq_iff_iff]
    simp [hmem]
  rw [List.eraseDups_append, List.eraseDups_append, h.firsts, hfilter, List.removeAll,
    eraseDups_filter, hm.firsts, ← eraseDups_filter]
  rfl

/-- What is there before is left out. -/
theorem of_subset (h : m ⊆ l) : Condenses (l ++ m) l := by
  refine ⟨List.sublist_append_left l m, ?_⟩
  have hnone : m.removeAll l = [] := by
    refine List.filter_eq_nil_iff.mpr fun a ha => ?_
    simpa using h ha
  rw [List.eraseDups_append, hnone, List.eraseDups_nil, List.append_nil]

end Condenses

end XsdTypes
