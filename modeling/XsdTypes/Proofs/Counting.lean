import Mathlib.Tactic

/-!
# Counting

Recursions that list the numbers they have met end because there are only so many numbers that can be
met. What is left is counted by `absentBelow`. The other lemmas count and add up over lists in which
nothing is repeated, and put them in order.
-/

namespace XsdTypes

/-- How many numbers below `n` are not in the list. -/
def absentBelow (n : Nat) (l : List Nat) : Nat :=
  (Finset.range n \ l.toFinset).card

variable {n a : Nat} {l l' : List Nat}

theorem absentBelow_le (n : Nat) (l : List Nat) : absentBelow n l ≤ n := by
  refine (Finset.card_le_card Finset.sdiff_subset).trans ?_
  rw [Finset.card_range]

theorem absentBelow_anti (h : l ⊆ l') : absentBelow n l' ≤ absentBelow n l := by
  refine Finset.card_le_card (Finset.sdiff_subset_sdiff (Finset.Subset.refl _) fun a ha => ?_)
  rw [List.mem_toFinset] at ha ⊢
  exact h ha

theorem absentBelow_cons_lt (ha : a < n) (hl : a ∉ l) : absentBelow n (a :: l) < absentBelow n l := by
  unfold absentBelow
  rw [List.toFinset_cons]
  refine Finset.card_lt_card ((Finset.ssubset_iff_of_subset ?_).mpr ⟨a, ?_, ?_⟩)
  · exact Finset.sdiff_subset_sdiff (Finset.Subset.refl _) (Finset.subset_insert _ _)
  · rw [Finset.mem_sdiff, Finset.mem_range, List.mem_toFinset]
    exact ⟨ha, hl⟩
  · exact fun h => (Finset.mem_sdiff.mp h).2 (Finset.mem_insert_self _ _)

/-- A sum falls with its terms, at least by what one of them falls. -/
theorem sum_map_add_le {α : Type} {l : List α} {f f' : α → Nat} (hle : ∀ b ∈ l, f' b ≤ f b) {a : α}
    (ha : a ∈ l) {k : Nat} (hk : f' a + k ≤ f a) : (l.map f').sum + k ≤ (l.map f).sum := by
  induction l with
  | nil => cases ha
  | cons b l ih =>
    have hhead := hle b List.mem_cons_self
    have htail : ∀ c ∈ l, f' c ≤ f c := fun c hc => hle c (List.mem_cons_of_mem _ hc)
    rw [List.map_cons, List.map_cons, List.sum_cons, List.sum_cons]
    rcases List.mem_cons.mp ha with rfl | hmem
    · have hrest := List.sum_le_sum htail
      omega
    · have hrest := ih htail hmem
      omega

/-- Where the values of a function differ, one element has the value of that element. -/
theorem filter_eq_singleton {α β : Type} [DecidableEq β] {l : List α} {f : α → β} {a : α}
    (hnodup : (l.map f).Nodup) (ha : a ∈ l) : (l.filter fun b => decide (f b = f a)) = [a] := by
  classical
  have hiff : ∀ b ∈ l, decide (f b = f a) = decide (b = a) := by
    intro b hb
    have hinj : f b = f a ↔ b = a :=
      ⟨fun h => List.inj_on_of_nodup_map hnodup hb ha h, fun h => h ▸ rfl⟩
    exact decide_eq_decide.mpr hinj
  rw [List.filter_congr hiff, List.filter_eq, List.count_eq_one_of_mem hnodup.of_map ha]
  rfl

section Sums

variable {α β M : Type} [AddCommMonoid M]

/-- What is there for one element of a list only is counted once. -/
theorem sum_ite_of_mem {l : List α} (hnodup : l.Nodup) {p : α → Prop} [DecidablePred p] {a : α}
    (ha : a ∈ l) (hp : ∀ b ∈ l, p b ↔ b = a) (y : M) :
    (l.map fun b => if p b then y else 0).sum = y := by
  induction l with
  | nil => cases ha
  | cons b l ih =>
    obtain ⟨hnotin, hnodup⟩ := List.nodup_cons.mp hnodup
    have hhead := hp b List.mem_cons_self
    have htail : ∀ c ∈ l, p c ↔ c = a := fun c hc => hp c (List.mem_cons_of_mem _ hc)
    rw [List.map_cons, List.sum_cons]
    rcases List.mem_cons.mp ha with rfl | hmem
    · have hrest : ∀ c ∈ l, (if p c then y else 0) = 0 := by
        intro c hc
        refine if_neg fun hpc => hnotin ?_
        rw [← (htail c hc).mp hpc]
        exact hc
      rw [if_pos (hhead.mpr rfl), List.map_congr_left hrest]
      simp
    · have hne : ¬ p b := by
        intro hpb
        rw [hhead.mp hpb] at hnotin
        exact hnotin hmem
      rw [if_neg hne, zero_add, ih hnodup hmem htail]

theorem sum_map_swap (l : List α) (l' : List β) (f : α → β → M) :
    (l.map fun a => (l'.map fun b => f a b).sum).sum =
      (l'.map fun b => (l.map fun a => f a b).sum).sum := by
  induction l with
  | nil => simp
  | cons a l ih => simp only [List.map_cons, List.sum_cons, ih, List.sum_map_add]

end Sums

/-- A list that is put in the order of keys is strictly increasing if no key is repeated. -/
theorem pairwise_lt_mergeSort {α κ : Type} [LinearOrder κ] {key : α → κ} {le : α → α → Bool}
    (hle : ∀ a b, le a b = true ↔ key a ≤ key b) {l : List α} (h : (l.map key).Nodup) :
    (l.mergeSort le).Pairwise fun a b => key a < key b := by
  have hsorted : (l.mergeSort le).Pairwise fun a b => le a b = true :=
    List.pairwise_mergeSort
      (fun a b c hab hbc => (hle a c).mpr (le_trans ((hle a b).mp hab) ((hle b c).mp hbc)))
      (fun a b => by
        rw [Bool.or_eq_true, hle, hle]
        exact le_total _ _) l
  have hnodup : (l.mergeSort le).Pairwise fun a b => key a ≠ key b :=
    List.pairwise_map.mp (((List.mergeSort_perm l le).map key).nodup_iff.mpr h)
  exact (hsorted.and hnodup).imp fun {a b} hab => lt_of_le_of_ne ((hle a b).mp hab.1) hab.2

end XsdTypes
