import Mathlib.Data.ENat.Basic
import Mathlib.Tactic
import XsdTypes.Schema.Occurrence

/-!
# The algebra of occurrence ranges

Products and sums of ranges obey the laws of arithmetic, because it does not matter when a number is
capped. A number of occurrences lies within a range that has been capped if it does so as far as the
range can tell: a bound at the limit says nothing.
-/

namespace XsdTypes

namespace Count

variable {a b c : Count}

theorem ext_val (h : a.val = b.val) : a = b := by
  cases a
  cases b
  simp only at h
  subst h
  rfl

theorem cap_val (n : Nat) : (cap n).val = min n limit := rfl

/-- It does not matter whether a factor is capped before. -/
theorem cap_mul_cap (m n : Nat) : cap ((cap m).val * n) = cap (m * n) := by
  refine ext_val ?_
  rw [cap_val, cap_val, cap_val]
  rcases Nat.le_total m limit with hm | hm
  · rw [Nat.min_eq_left hm]
  · rw [Nat.min_eq_right hm]
    rcases Nat.eq_zero_or_pos n with rfl | hn
    · rfl
    · have hlimit : limit ≤ limit * n := Nat.le_mul_of_pos_right limit hn
      rw [Nat.min_eq_right hlimit,
        Nat.min_eq_right (Nat.le_trans hlimit (Nat.mul_le_mul_right n hm))]

/-- It does not matter whether a summand is capped before. -/
theorem cap_add_cap (m n : Nat) : cap ((cap m).val + n) = cap (m + n) := by
  refine ext_val ?_
  simp only [cap_val]
  omega

theorem cap_of_val (a : Count) : cap a.val = a :=
  ext_val (Nat.min_eq_left a.le_limit)

theorem cap_surjective : Function.Surjective cap :=
  fun a => ⟨a.val, cap_of_val a⟩

theorem cap_mul (m n : Nat) : cap (m * n) = (cap m).times (cap n) := by
  rw [times, cap_mul_cap, Nat.mul_comm, Nat.mul_comm m, cap_mul_cap]

theorem cap_add (m n : Nat) : cap (m + n) = (cap m).plus (cap n) := by
  rw [plus, cap_add_cap, Nat.add_comm, Nat.add_comm m, cap_add_cap]

theorem cap_mono {m n : Nat} (h : m ≤ n) : (cap m).val ≤ (cap n).val :=
  min_le_min_right limit h

theorem cap_val_eq_zero {n : Nat} : (cap n).val = 0 ↔ n = 0 := by
  rw [cap_val, limit]
  omega

theorem one_lt_cap_val {n : Nat} : 1 < (cap n).val ↔ 1 < n := by
  rw [cap_val, limit]
  omega

theorem times_comm (a b : Count) : a.times b = b.times a := by
  rw [times, times, Nat.mul_comm]

theorem times_assoc (a b c : Count) : (a.times b).times c = a.times (b.times c) := by
  obtain ⟨l, rfl⟩ := cap_surjective a
  obtain ⟨m, rfl⟩ := cap_surjective b
  obtain ⟨n, rfl⟩ := cap_surjective c
  rw [← cap_mul, ← cap_mul, ← cap_mul, ← cap_mul, Nat.mul_assoc]

theorem one_times (a : Count) : one.times a = a := by
  rw [times, one, Nat.one_mul, cap_of_val]

theorem plus_comm (a b : Count) : a.plus b = b.plus a := by
  rw [plus, plus, Nat.add_comm]

theorem plus_assoc (a b c : Count) : (a.plus b).plus c = a.plus (b.plus c) := by
  obtain ⟨l, rfl⟩ := cap_surjective a
  obtain ⟨m, rfl⟩ := cap_surjective b
  obtain ⟨n, rfl⟩ := cap_surjective c
  rw [← cap_add, ← cap_add, ← cap_add, ← cap_add, Nat.add_assoc]

theorem zero_plus (a : Count) : zero.plus a = a := by
  rw [plus, zero, Nat.zero_add, cap_of_val]

theorem plus_times (a b c : Count) : (a.plus b).times c = (a.times c).plus (b.times c) := by
  obtain ⟨l, rfl⟩ := cap_surjective a
  obtain ⟨m, rfl⟩ := cap_surjective b
  obtain ⟨n, rfl⟩ := cap_surjective c
  rw [← cap_add, ← cap_mul, ← cap_mul, ← cap_mul, ← cap_add, Nat.add_mul]

theorem times_val_eq_zero : (a.times b).val = 0 ↔ a.val = 0 ∨ b.val = 0 := by
  rw [← Nat.mul_eq_zero, times, cap_val, limit]
  omega

theorem plus_val_eq_zero : (a.plus b).val = 0 ↔ a.val = 0 ∧ b.val = 0 := by
  rw [plus, cap_val, limit]
  omega

theorem zero_times (a : Count) : zero.times a = zero :=
  ext_val (times_val_eq_zero.mpr (Or.inl rfl))

theorem eq_zero_of_val (h : a.val = 0) : a = zero := ext_val h

end Count

namespace Bound

variable {a b c : Bound} {k : Nat}

theorem times_comm (a b : Bound) : a.times b = b.times a := by
  cases a <;> cases b <;> simp only [times, Count.times_comm]

/-- The bound as a number. -/
def toENat : Bound → ℕ∞
  | .atMost n => n.val
  | .unbounded => ⊤

/-- The bound that a number is; one that is finite stays so. -/
def cap : ℕ∞ → Bound :=
  ENat.recTopCoe .unbounded fun n => .atMost (Count.cap n)

@[simp] theorem cap_top : cap ⊤ = .unbounded := rfl

@[simp] theorem cap_coe (n : Nat) : cap n = .atMost (Count.cap n) := rfl

theorem cap_toENat (a : Bound) : cap a.toENat = a := by
  cases a with
  | atMost n => rw [toENat, cap_coe, Count.cap_of_val]
  | unbounded => rfl

theorem cap_surjective : Function.Surjective cap :=
  fun a => ⟨a.toENat, cap_toENat a⟩

theorem cap_top_mul (x : ℕ∞) : cap (⊤ * x) = unbounded.times (cap x) := by
  cases x with
  | top => rfl
  | coe n =>
    rw [cap_coe, times]
    by_cases hn : n = 0
    · rw [if_pos (Count.cap_val_eq_zero.mpr hn), hn, Nat.cast_zero, mul_zero]
      rfl
    · rw [if_neg (mt Count.cap_val_eq_zero.mp hn), ENat.top_mul (by exact_mod_cast hn), cap_top]

theorem cap_mul (x y : ℕ∞) : cap (x * y) = (cap x).times (cap y) := by
  cases x with
  | top => exact cap_top_mul y
  | coe m =>
    cases y with
    | top =>
      rw [mul_comm, times_comm]
      exact cap_top_mul m
    | coe n => rw [← Nat.cast_mul, cap_coe, cap_coe, cap_coe, times, Count.cap_mul]

theorem cap_add (x y : ℕ∞) : cap (x + y) = (cap x).plus (cap y) := by
  cases x with
  | top => rw [top_add]; rfl
  | coe m =>
    cases y with
    | top => rw [add_top]; rfl
    | coe n => rw [← Nat.cast_add, cap_coe, cap_coe, cap_coe, plus, Count.cap_add]

theorem times_assoc (a b c : Bound) : (a.times b).times c = a.times (b.times c) := by
  obtain ⟨x, rfl⟩ := cap_surjective a
  obtain ⟨y, rfl⟩ := cap_surjective b
  obtain ⟨z, rfl⟩ := cap_surjective c
  rw [← cap_mul, ← cap_mul, ← cap_mul, ← cap_mul, mul_assoc]

theorem one_times (a : Bound) : one.times a = a := by
  cases a with
  | atMost n => rw [one, times, Count.one_times]
  | unbounded => rfl

theorem plus_comm (a b : Bound) : a.plus b = b.plus a := by
  cases a <;> cases b <;> simp only [plus, Count.plus_comm]

theorem plus_assoc (a b c : Bound) : (a.plus b).plus c = a.plus (b.plus c) := by
  cases a <;> cases b <;> cases c <;> simp only [plus, Count.plus_assoc]

theorem zero_plus (a : Bound) : (atMost Count.zero).plus a = a := by
  cases a with
  | atMost n => rw [plus, Count.zero_plus]
  | unbounded => rfl

theorem zero_times (a : Bound) : (atMost Count.zero).times a = .atMost Count.zero := by
  cases a with
  | atMost n => rw [times, Count.zero_times]
  | unbounded => rfl

theorem plus_times (a b c : Bound) : (a.plus b).times c = (a.times c).plus (b.times c) := by
  obtain ⟨x, rfl⟩ := cap_surjective a
  obtain ⟨y, rfl⟩ := cap_surjective b
  obtain ⟨z, rfl⟩ := cap_surjective c
  rw [← cap_add, ← cap_mul, ← cap_mul, ← cap_mul, ← cap_add, add_mul]

/-- Whether nothing is allowed. -/
def isNone : Bound → Bool
  | .atMost n => n.val = 0
  | .unbounded => false

/-- A product is nothing, unbounded or capped. -/
theorem times_unbounded (a : Bound) :
    a.times .unbounded = if a.isNone then .atMost Count.zero else .unbounded := by
  cases a <;> simp [times, isNone]

/-- So many occurrences are allowed, as far as the bound can tell. -/
def Admits : Bound → Nat → Prop
  | .atMost n, k => n.val < Count.limit → k ≤ n.val
  | .unbounded, _ => True

theorem Admits.mono {j : Nat} (h : a.Admits k) (hle : j ≤ k) : a.Admits j := by
  cases a with
  | atMost n => exact fun hn => Nat.le_trans hle (h hn)
  | unbounded => trivial

theorem Admits.plus {j : Nat} (ha : a.Admits j) (hb : b.Admits k) : (a.plus b).Admits (j + k) := by
  cases a with
  | unbounded => trivial
  | atMost m =>
    cases b with
    | unbounded => trivial
    | atMost n =>
      intro hlt
      rw [Count.plus, Count.cap_val] at hlt ⊢
      have hj := ha (by omega)
      have hk := hb (by omega)
      omega

theorem admits_zero (a : Bound) : a.Admits 0 := by
  cases a with
  | atMost n => exact fun _ => Nat.zero_le _
  | unbounded => trivial

theorem Admits.eq_zero (h : a.Admits k) (hnone : a.isNone = true) : k = 0 := by
  cases a with
  | atMost n =>
    have hn : n.val = 0 := by simpa [isNone] using hnone
    exact Nat.le_zero.mp (hn ▸ h (by rw [hn]; decide))
  | unbounded => cases hnone

/-- What occurs so often in each of so many occurrences. -/
theorem Admits.times {ks : List Nat} (ha : a.Admits ks.length) (hb : ∀ k ∈ ks, b.Admits k) :
    (a.times b).Admits ks.sum := by
  by_cases hnone : a.isNone = true ∨ b.isNone = true
  · have hsum : ks.sum = 0 := by
      rcases hnone with hnone | hnone
      · rw [List.length_eq_zero_iff.mp (ha.eq_zero hnone)]
        rfl
      · exact List.sum_eq_zero fun k hk => (hb k hk).eq_zero hnone
    rw [hsum]
    exact admits_zero _
  obtain ⟨hna, hnb⟩ := not_or.mp hnone
  cases b with
  | unbounded =>
    rw [times_unbounded, if_neg hna]
    trivial
  | atMost n =>
    have hn : ¬ n.val = 0 := by simpa [isNone] using hnb
    cases a with
    | unbounded =>
      rw [Bound.times, if_neg hn]
      trivial
    | atMost m =>
      have hm : ¬ m.val = 0 := by simpa [isNone] using hna
      intro hlt
      rw [Count.times, Count.cap_val] at hlt ⊢
      have hprod : m.val * n.val < Count.limit := by omega
      have hmle : m.val ≤ m.val * n.val := Nat.le_mul_of_pos_right _ (Nat.pos_of_ne_zero hn)
      have hnle : n.val ≤ m.val * n.val := Nat.le_mul_of_pos_left _ (Nat.pos_of_ne_zero hm)
      have hlength : ks.length ≤ m.val := ha (Nat.lt_of_le_of_lt hmle hprod)
      have hsum : ks.sum ≤ ks.length • n.val :=
        List.sum_le_card_nsmul ks n.val fun k hk => hb k hk (Nat.lt_of_le_of_lt hnle hprod)
      rw [Nat.min_eq_left (Nat.le_of_lt hprod)]
      exact Nat.le_trans hsum (Nat.mul_le_mul_right n.val hlength)

theorem Admits.le_one (h : a.Admits k) (hfew : a.isMany = false) : k ≤ 1 := by
  cases a with
  | atMost n =>
    have hn : n.val ≤ 1 := by simpa [isMany] using hfew
    exact Nat.le_trans (h (Nat.lt_of_le_of_lt hn (by decide))) hn
  | unbounded => cases hfew

end Bound

namespace Occurrence

variable {a b : Occurrence} {k : Nat}

theorem ext_bounds (hmin : a.min = b.min) (hmax : a.max = b.max) : a = b := by
  cases a
  cases b
  simp only at hmin hmax
  rw [hmin, hmax]

theorem times_comm (a b : Occurrence) : a.times b = b.times a :=
  ext_bounds (Count.times_comm _ _) (Bound.times_comm _ _)

theorem times_assoc (a b c : Occurrence) : (a.times b).times c = a.times (b.times c) :=
  ext_bounds (Count.times_assoc _ _ _) (Bound.times_assoc _ _ _)

theorem once_times (a : Occurrence) : once.times a = a :=
  ext_bounds (Count.one_times _) (Bound.one_times _)

theorem plus_times (a b c : Occurrence) : (a.plus b).times c = (a.times c).plus (b.times c) :=
  ext_bounds (Count.plus_times _ _ _) (Bound.plus_times _ _ _)

theorem plus_comm (a b : Occurrence) : a.plus b = b.plus a :=
  ext_bounds (Count.plus_comm _ _) (Bound.plus_comm _ _)

instance : Zero Occurrence := ⟨⟨Count.zero, .atMost Count.zero⟩⟩

instance : Add Occurrence := ⟨plus⟩

theorem zero_plus (a : Occurrence) : plus 0 a = a :=
  ext_bounds (Count.zero_plus _) (Bound.zero_plus _)

/-- Ranges of declarations beside each other are added up. -/
instance : AddCommMonoid Occurrence where
  add_assoc a b c := ext_bounds (Count.plus_assoc _ _ _) (Bound.plus_assoc _ _ _)
  zero_add := zero_plus
  add_zero a := (plus_comm a 0).trans (zero_plus a)
  add_comm := plus_comm
  nsmul := nsmulRec

/-- The number lies within the range, as far as the range can tell. -/
def Within (a : Occurrence) (k : Nat) : Prop :=
  a.min.val ≤ k ∧ a.max.Admits k

theorem within_zero : (0 : Occurrence).Within 0 :=
  ⟨Nat.le_refl _, Bound.admits_zero _⟩

theorem within_once : once.Within 1 :=
  ⟨Nat.le_refl _, fun _ => Nat.le_refl _⟩

theorem Within.add {j : Nat} (ha : a.Within j) (hb : b.Within k) : (a + b).Within (j + k) := by
  refine ⟨Nat.le_trans ?_ (Nat.add_le_add ha.1 hb.1), ha.2.plus hb.2⟩
  exact Nat.min_le_left _ _

theorem Within.times {ks : List Nat} (ha : a.Within ks.length) (hb : ∀ k ∈ ks, b.Within k) :
    (a.times b).Within ks.sum := by
  refine ⟨?_, ha.2.times fun k hk => (hb k hk).2⟩
  have hsum : ks.length • b.min.val ≤ ks.sum :=
    List.card_nsmul_le_sum ks b.min.val fun k hk => (hb k hk).1
  calc (a.times b).min.val ≤ a.min.val * b.min.val := Nat.min_le_left _ _
    _ ≤ ks.length * b.min.val := Nat.mul_le_mul_right _ ha.1
    _ ≤ ks.sum := hsum

/-- Fewer occurrences are within the range if nothing is required. -/
theorem Within.optional {j : Nat} (h : a.Within k) (hle : j ≤ k) : a.optional.Within j :=
  ⟨Nat.zero_le _, h.2.mono hle⟩

/-! ## Sums -/

section Sums

variable {α : Type}

theorem times_once (a : Occurrence) : a.times once = a := by
  rw [times_comm, once_times]

theorem zero_times (a : Occurrence) : times 0 a = 0 :=
  ext_bounds (Count.zero_times _) (Bound.zero_times _)

theorem add_times (a b c : Occurrence) : (a + b).times c = a.times c + b.times c :=
  plus_times a b c

theorem sum_times (l : List α) (f : α → Occurrence) (c : Occurrence) :
    (l.map f).sum.times c = (l.map fun x => (f x).times c).sum := by
  induction l with
  | nil => exact zero_times c
  | cons x l ih => rw [List.map_cons, List.sum_cons, add_times, ih, List.map_cons, List.sum_cons]

theorem Within.sum {l : List α} {f : α → Occurrence} {k : α → Nat}
    (h : ∀ x ∈ l, (f x).Within (k x)) : (l.map f).sum.Within (l.map k).sum := by
  induction l with
  | nil => exact within_zero
  | cons x l ih =>
    have hhead := h x List.mem_cons_self
    have htail := ih fun y hy => h y (List.mem_cons_of_mem _ hy)
    rw [List.map_cons, List.map_cons, List.sum_cons, List.sum_cons]
    exact hhead.add htail

/-- A sum requires nothing if and only if none of its parts does. -/
theorem min_sum_eq_zero {l : List Occurrence} : l.sum.min.val = 0 ↔ ∀ a ∈ l, a.min.val = 0 := by
  induction l with
  | nil => simp [Count.zero, show (0 : Occurrence).min = Count.zero from rfl]
  | cons b l ih =>
    have hboth : (b :: l).sum.min.val = 0 ↔ b.min.val = 0 ∧ l.sum.min.val = 0 := by
      rw [List.sum_cons]
      exact Count.plus_val_eq_zero
    rw [hboth, ih, List.forall_mem_cons]

end Sums

end Occurrence

end XsdTypes
