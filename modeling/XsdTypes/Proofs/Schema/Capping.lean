import XsdTypes.Proofs.Schema.Ranges

/-!
# Capped arithmetic

Capping takes the numbers with infinity onto the bounds, and sums and products along. So bounds are
a commutative semiring, and a range that is put together from many is the exact one, capped once: it
does not depend on brackets or order. What has been capped still tells whether it is nothing and
whether it is more than one, and its least number is not above its greatest one if that holds of all
it is made of.
-/

namespace XsdTypes

namespace Bound

instance : Zero Bound := ⟨.atMost Count.zero⟩

instance : One Bound := ⟨one⟩

instance : Add Bound := ⟨plus⟩

instance : Mul Bound := ⟨times⟩

/-- Bounds are added up beside each other and multiplied within each other. -/
instance : CommSemiring Bound where
  add_assoc := plus_assoc
  add_comm := plus_comm
  zero_add := zero_plus
  add_zero a := (plus_comm a 0).trans (zero_plus a)
  nsmul := nsmulRec
  mul_assoc := times_assoc
  mul_comm := times_comm
  one_mul := one_times
  mul_one a := (times_comm a 1).trans (one_times a)
  zero_mul := zero_times
  mul_zero a := (times_comm a 0).trans (zero_times a)
  right_distrib := plus_times
  left_distrib a b c := by
    change a.times (b.plus c) = (a.times b).plus (a.times c)
    rw [times_comm, plus_times, times_comm b, times_comm c]

/-- A finite number stays finite. -/
theorem toENat_cap (n : ℕ) : (cap n).toENat = (min n Count.limit : ℕ) := rfl

theorem cap_eq_zero {x : ℕ∞} : cap x = .atMost Count.zero ↔ x = 0 := by
  cases x with
  | top => simp
  | coe n =>
    rw [cap_coe, atMost.injEq, Nat.cast_eq_zero, ← Count.cap_val_eq_zero]
    exact ⟨fun h => h ▸ rfl, Count.eq_zero_of_val⟩

end Bound

namespace Occurrence

/-- The least number is not above the greatest one. -/
def Consistent (a : Occurrence) : Prop :=
  (a.min.val : ℕ∞) ≤ a.max.toENat

/-- A range keeps the order of the numbers it is capped from. -/
theorem consistent_cap {x : ℕ × ℕ∞} (h : (x.1 : ℕ∞) ≤ x.2) : (cap x).Consistent := by
  obtain ⟨m, y⟩ := x
  cases y with
  | top => exact le_top
  | coe n =>
    have hmn : m ≤ n := Nat.cast_le.mp h
    exact Nat.cast_le.mpr (Count.cap_mono hmn)

theorem Consistent.times {a b : Occurrence} (ha : a.Consistent) (hb : b.Consistent) :
    (a.times b).Consistent := by
  rw [← cap_range a, ← cap_range b, ← cap_mul]
  refine consistent_cap ?_
  calc ((a.min.val * b.min.val : ℕ) : ℕ∞) = a.min.val * b.min.val := Nat.cast_mul _ _
    _ ≤ a.max.toENat * b.max.toENat := mul_le_mul' ha hb

theorem Consistent.plus {a b : Occurrence} (ha : a.Consistent) (hb : b.Consistent) :
    (a.plus b).Consistent := by
  change (a + b).Consistent
  rw [← cap_range a, ← cap_range b, ← cap_add]
  refine consistent_cap ?_
  calc ((a.min.val + b.min.val : ℕ) : ℕ∞) = a.min.val + b.min.val := Nat.cast_add _ _
    _ ≤ a.max.toENat + b.max.toENat := add_le_add ha hb

/-- The range tells which of the two numbers are nothing and which are more than one. -/
structure Tells (a : Occurrence) (x : ℕ × ℕ∞) : Prop where
  min_zero : a.min.val = 0 ↔ x.1 = 0
  min_many : 1 < a.min.val ↔ 1 < x.1
  max_zero : a.max = .atMost Count.zero ↔ x.2 = 0
  max_many : a.max.isMany = true ↔ 1 < x.2

theorem tells_cap (x : ℕ × ℕ∞) : (cap x).Tells x where
  min_zero := Count.cap_val_eq_zero
  min_many := Count.one_lt_cap_val
  max_zero := Bound.cap_eq_zero
  max_many := Bound.isMany_cap x.2

end Occurrence

/-! ## Brackets and order -/

/-- How what stands in a row is put together, two at a time. -/
inductive Bracketing (α : Type) where
  /-- One of the row. -/
  | single (a : α)
  /-- Two parts of the row. -/
  | pair (left right : Bracketing α)

namespace Bracketing

variable {α : Type}

/-- The row. -/
def items : Bracketing α → List α
  | single a => [a]
  | pair left right => left.items ++ right.items

/-- What an operation makes of the row. -/
def combine (op : α → α → α) : Bracketing α → α
  | single a => a
  | pair left right => op (left.combine op) (right.combine op)

/-- A function of rows that turns appending into the operation is what every bracketing leads to. -/
theorem combine_eq {op : α → α → α} (total : List α → α) (hsingle : ∀ a, total [a] = a)
    (happend : ∀ l r, total (l ++ r) = op (total l) (total r)) (t : Bracketing α) :
    t.combine op = total t.items := by
  induction t with
  | single a => exact (hsingle a).symm
  | pair left right hleft hright => rw [combine, items, happend, hleft, hright]

/-- What the operation preserves holds of the result. -/
theorem combine_preserves {op : α → α → α} {P : α → Prop} (hop : ∀ a b, P a → P b → P (op a b))
    {t : Bracketing α} (h : ∀ a ∈ t.items, P a) : P (t.combine op) := by
  induction t with
  | single a => exact h a (List.mem_singleton.mpr rfl)
  | pair left right hleft hright =>
    refine hop _ _ (hleft fun a ha => ?_) (hright fun a ha => ?_)
    · exact h a (List.mem_append_left _ ha)
    · exact h a (List.mem_append_right _ ha)

/-- Ranges within each other are multiplied without a limit and capped once. -/
theorem combine_times (t : Bracketing Occurrence) :
    t.combine Occurrence.times = .cap (t.items.map Occurrence.range).prod := by
  refine combine_eq (fun l => .cap (l.map Occurrence.range).prod) (fun a => ?_) (fun l r => ?_) t
  · rw [List.map_singleton, List.prod_singleton, Occurrence.cap_range]
  · rw [List.map_append, List.prod_append, Occurrence.cap_mul]

/-- Ranges beside each other are added up without a limit and capped once. -/
theorem combine_plus (t : Bracketing Occurrence) :
    t.combine Occurrence.plus = .cap (t.items.map Occurrence.range).sum := by
  refine combine_eq (fun l => .cap (l.map Occurrence.range).sum) (fun a => ?_) (fun l r => ?_) t
  · rw [List.map_singleton, List.sum_singleton, Occurrence.cap_range]
  · rw [List.map_append, List.sum_append, Occurrence.cap_add]
    rfl

end Bracketing

/-- Bounds are the numbers with infinity, the finite ones capped, with the arithmetic of these; they
are a commutative semiring. Ranges lead to the same product and the same sum however they are
bracketed and ordered. Both are consistent if all ranges are, and tell which of the exact numbers
are nothing and which are more than one. -/
theorem occurrence_arithmetic_capped :
    (∀ n : ℕ, (Bound.cap n).toENat = (min n (2 ^ 32 - 1) : ℕ)) ∧ Bound.cap ⊤ = .unbounded ∧
    Function.Surjective Bound.cap ∧
    (∀ x y, Bound.cap (x + y) = (Bound.cap x).plus (Bound.cap y)) ∧
    (∀ x y, Bound.cap (x * y) = (Bound.cap x).times (Bound.cap y)) ∧
    (∃ laws : CommSemiring Bound, laws.add = Bound.plus ∧ laws.mul = Bound.times ∧
      laws.zero = .atMost Count.zero ∧ laws.one = Bound.one) ∧
    (∀ t u : Bracketing Occurrence, t.items.Perm u.items →
      t.combine Occurrence.times = u.combine Occurrence.times ∧
      t.combine Occurrence.plus = u.combine Occurrence.plus) ∧
    ∀ t : Bracketing Occurrence,
      ((∀ a ∈ t.items, a.Consistent) →
        (t.combine Occurrence.times).Consistent ∧ (t.combine Occurrence.plus).Consistent) ∧
      (t.combine Occurrence.times).Tells (t.items.map Occurrence.range).prod ∧
      (t.combine Occurrence.plus).Tells (t.items.map Occurrence.range).sum := by
  refine ⟨Bound.toENat_cap, rfl, Bound.cap_surjective, Bound.cap_add, Bound.cap_mul,
    ⟨inferInstance, rfl, rfl, rfl, rfl⟩, fun t u hperm => ?_, fun t => ⟨fun h => ?_, ?_, ?_⟩⟩
  · -- the exact numbers may be taken in any order, and they are capped afterwards
    have hranges := hperm.map Occurrence.range
    rw [t.combine_times, u.combine_times, hranges.prod_eq, t.combine_plus, u.combine_plus,
      hranges.sum_eq]
    exact ⟨rfl, rfl⟩
  · exact ⟨Bracketing.combine_preserves (fun _ _ => Occurrence.Consistent.times) h,
      Bracketing.combine_preserves (fun _ _ => Occurrence.Consistent.plus) h⟩
  · rw [t.combine_times]
    exact Occurrence.tells_cap _
  · rw [t.combine_plus]
    exact Occurrence.tells_cap _

/-- A factor whose square is above the limit, one without a greatest number, and one that requires
nothing. -/
def mixedFactors : Bracketing Occurrence :=
  .pair (.pair (.single ⟨.cap 65536, .atMost (.cap 65536)⟩) (.single ⟨.cap 65536, .unbounded⟩))
    (.single ⟨.zero, .atMost (.cap 3)⟩)

/-- The same factors in another order. -/
def mixedFactorsTurned : Bracketing Occurrence :=
  .pair (.single ⟨.cap 65536, .unbounded⟩)
    (.pair (.single ⟨.zero, .atMost (.cap 3)⟩) (.single ⟨.cap 65536, .atMost (.cap 65536)⟩))

theorem occurrence_arithmetic_capped_example :
    mixedFactors.items.Perm mixedFactorsTurned.items ∧
    mixedFactors.combine Occurrence.times = ⟨.zero, .unbounded⟩ ∧
    mixedFactors.combine Occurrence.times = mixedFactorsTurned.combine Occurrence.times ∧
    (∀ a ∈ mixedFactors.items, a.Consistent) ∧ (mixedFactors.combine Occurrence.times).Consistent ∧
    (mixedFactors.combine Occurrence.plus).Consistent := by
  obtain ⟨_, _, _, _, _, _, hturned, hconsistent⟩ := occurrence_arithmetic_capped
  have hperm : mixedFactors.items.Perm mixedFactorsTurned.items := by decide
  have hitems : ∀ a ∈ mixedFactors.items, a.Consistent := by
    intro a ha
    simp only [mixedFactors, Bracketing.items, List.cons_append, List.nil_append, List.mem_cons,
      List.not_mem_nil, or_false] at ha
    rcases ha with rfl | rfl | rfl
    · exact le_refl _
    · exact le_top
    · exact bot_le
  obtain ⟨htimes, hplus⟩ := (hconsistent mixedFactors).1 hitems
  exact ⟨hperm, by decide, (hturned _ _ hperm).1, hitems, htimes, hplus⟩

end XsdTypes
