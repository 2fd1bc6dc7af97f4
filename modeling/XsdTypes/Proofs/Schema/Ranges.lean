import XsdTypes.Proofs.Schema.Occurrence

/-!
# Ranges without a limit

A range stands for a range of numbers in which nothing is capped and the greatest number may be
infinite. Sums and products of ranges are those of the numbers, capped once: it makes no difference
what has been capped on the way.
-/

namespace XsdTypes

namespace Bound

theorem isMany_cap (x : ℕ∞) : (cap x).isMany = true ↔ 1 < x := by
  cases x with
  | top => simp [isMany]
  | coe n => rw [cap_coe, isMany, decide_eq_true_eq, Count.one_lt_cap_val, Nat.one_lt_cast]

theorem isMany_iff (a : Bound) : a.isMany = true ↔ 1 < a.toENat := by
  rw [← isMany_cap, cap_toENat]

theorem one_lt_cap {x : ℕ∞} : 1 < (cap x).toENat ↔ 1 < x := by
  rw [← isMany_iff, isMany_cap]

end Bound

namespace Occurrence

/-- The range as a pair of numbers. -/
def range (a : Occurrence) : ℕ × ℕ∞ := (a.min.val, a.max.toENat)

/-- The range that a pair of numbers is. -/
def cap (x : ℕ × ℕ∞) : Occurrence := ⟨Count.cap x.1, Bound.cap x.2⟩

theorem cap_range (a : Occurrence) : cap a.range = a :=
  ext_bounds (Count.cap_of_val a.min) (Bound.cap_toENat a.max)

theorem cap_one : cap 1 = once := rfl

theorem cap_zero : cap 0 = 0 := rfl

theorem cap_mul (x y : ℕ × ℕ∞) : cap (x * y) = (cap x).times (cap y) :=
  ext_bounds (Count.cap_mul x.1 y.1) (Bound.cap_mul x.2 y.2)

theorem cap_add (x y : ℕ × ℕ∞) : cap (x + y) = cap x + cap y :=
  ext_bounds (Count.cap_add x.1 y.1) (Bound.cap_add x.2 y.2)

/-- A product within a range. -/
theorem cap_mul_range (x : ℕ × ℕ∞) (a : Occurrence) : cap (x * a.range) = (cap x).times a := by
  rw [cap_mul, cap_range]

/-- Nothing is required of one branch of a choice. -/
theorem optional_cap (x : ℕ × ℕ∞) : (cap x).optional = cap ((0, 1) * x) := by
  refine ext_bounds ?_ ?_
  · change Count.zero = Count.cap (0 * x.1)
    rw [Nat.zero_mul]
    rfl
  · change Bound.cap x.2 = Bound.cap (1 * x.2)
    rw [one_mul]

end Occurrence

end XsdTypes
