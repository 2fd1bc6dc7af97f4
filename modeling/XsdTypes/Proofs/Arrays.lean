import Mathlib.Tactic

/-!
# Arrays that are read with a default

What is read from an array after a change, whatever place is asked for.
-/

namespace XsdTypes

variable {α : Type} [Inhabited α]

theorem getD_modify (xs : Array α) (i j : Nat) (f : α → α) :
    (xs.modify i f).getD j default =
      if j = i ∧ j < xs.size then f (xs.getD j default) else xs.getD j default := by
  by_cases hj : j < xs.size
  · by_cases hij : j = i
    · subst hij
      simp [Array.getD, hj, Array.getElem_modify]
    · have hji : i ≠ j := fun h => hij h.symm
      simp [Array.getD, hj, hij, Array.getElem_modify, hji]
  · simp [Array.getD, hj]

theorem getD_push (xs : Array α) (x : α) (j : Nat) :
    (xs.push x).getD j default = if j = xs.size then x else xs.getD j default := by
  by_cases hj : j = xs.size
  · subst hj
    simp [Array.getD]
  · rw [if_neg hj]
    by_cases hlt : j < xs.size
    · have : j < xs.size + 1 := by omega
      simp [Array.getD, hlt, this, Array.getElem_push]
    · have : ¬ j < xs.size + 1 := by omega
      simp [Array.getD, hlt, this]

theorem getD_of_size_le (xs : Array α) {j : Nat} (h : xs.size ≤ j) : xs.getD j default = default := by
  have : ¬ j < xs.size := by omega
  simp [Array.getD, this]

theorem toList_eq_map_getD (xs : Array α) :
    xs.toList = (List.range xs.size).map fun i => xs.getD i default := by
  refine List.ext_getElem (by simp) fun i hi _ => ?_
  have hlt : i < xs.size := by simpa using hi
  simp [Array.getD, hlt]

theorem getD_map_of_default (xs : Array α) {f : α → α} (hf : f default = default) (j : Nat) :
    (xs.map f).getD j default = f (xs.getD j default) := by
  by_cases hj : j < xs.size
  · simp [Array.getD, hj]
  · simp [Array.getD, hj, hf]

/-- What a map over an array keeps of its elements is read back unchanged. -/
theorem getD_map {β : Type} (xs : Array α) {f : α → α} {p : α → β} (hf : ∀ x, p (f x) = p x)
    (j : Nat) : p ((xs.map f).getD j default) = p (xs.getD j default) := by
  by_cases hj : j < xs.size
  · simp [Array.getD, hj, hf]
  · simp [Array.getD, hj]

end XsdTypes
