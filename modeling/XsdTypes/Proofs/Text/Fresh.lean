import Mathlib.Tactic
import XsdTypes.Text.Fresh

/-!
# Fresh names are free

There is one more numbered form to try than there are names that are taken, and numbered forms
differ, so that one of them is free.
-/

namespace XsdTypes.Text

theorem numbered_injective (mark base : String) : Function.Injective (numbered mark base) := by
  intro i j h
  have htext : (toString i).toList = (toString j).toList := by
    simpa only [numbered, String.toList_append, List.append_cancel_left_eq] using
      congrArg String.toList h
  have hdigits : Nat.toDigits 10 i = Nat.toDigits 10 j := by
    simpa only [Nat.toString_eq_ofList_toDigits, String.toList_ofList] using htext
  rw [← Nat.ofDigitChars_ten_toDigits (n := i), hdigits, Nat.ofDigitChars_ten_toDigits]

/-- If the search ends at a name that is taken, all forms that it has tried are taken. -/
theorem numbered_mem_of_firstFree_mem {mark base : String} {taken : List String} {fuel n : Nat}
    (h : firstFree mark base taken fuel n ∈ taken) :
    ∀ i ≤ fuel, numbered mark base (n + i) ∈ taken := by
  induction fuel generalizing n with
  | zero =>
    intro i hi
    cases Nat.le_zero.mp hi
    exact h
  | succ fuel ih =>
    rw [firstFree] at h
    split at h
    · rename_i hn
      intro i hi
      cases i with
      | zero => exact hn
      | succ i =>
        have htaken := ih h i (Nat.le_of_succ_le_succ hi)
        rwa [Nat.add_assoc, Nat.add_comm 1] at htaken
    · rename_i hn
      exact absurd h hn

theorem firstFree_notMem (mark base : String) (taken : List String) (n : Nat) :
    firstFree mark base taken taken.length n ∉ taken := by
  intro h
  have hall := numbered_mem_of_firstFree_mem h
  set forms := (List.range (taken.length + 1)).map fun i => numbered mark base (n + i) with hforms
  have hnodup : forms.Nodup := by
    refine List.nodup_range.map fun i j hij => ?_
    exact Nat.add_left_cancel (numbered_injective mark base hij)
  have hsubset : forms ⊆ taken := by
    intro name hname
    obtain ⟨i, hi, rfl⟩ := List.mem_map.mp hname
    exact hall i (Nat.le_of_lt_succ (List.mem_range.mp hi))
  have hlength := (List.subperm_of_subset hnodup hsubset).length_le
  rw [hforms, List.length_map, List.length_range] at hlength
  exact absurd hlength (Nat.not_succ_le_self _)

theorem fresh_notMem (mark base : String) (taken : List String) :
    fresh mark base taken ∉ taken := by
  unfold fresh
  split
  · exact firstFree_notMem mark base taken 2
  · assumption

@[simp] theorem freshAll_length (mark : String) (bases taken : List String) :
    (freshAll mark bases taken).length = bases.length := by
  induction bases generalizing taken with
  | nil => rfl
  | cons base bases ih => rw [freshAll, List.length_cons, ih, List.length_cons]

theorem freshAll_notMem (mark : String) (bases taken : List String) :
    ∀ name ∈ freshAll mark bases taken, name ∉ taken := by
  induction bases generalizing taken with
  | nil => nofun
  | cons base bases ih =>
    intro name hname
    rw [freshAll] at hname
    rcases List.mem_cons.mp hname with rfl | hrest
    · exact fresh_notMem mark base taken
    · exact fun htaken => ih _ name hrest (List.mem_cons_of_mem _ htaken)

theorem freshAll_nodup (mark : String) (bases taken : List String) :
    (freshAll mark bases taken).Nodup := by
  induction bases generalizing taken with
  | nil => exact List.nodup_nil
  | cons base bases ih =>
    rw [freshAll]
    exact List.nodup_cons.mpr ⟨fun hmem => freshAll_notMem _ _ _ _ hmem List.mem_cons_self, ih _⟩

/-- What holds of all fresh names holds of those that are given one after the other. -/
theorem forall_mem_freshAll {mark : String} {P : String → Prop} {bases : List String}
    (hfresh : ∀ base ∈ bases, ∀ taken, P (fresh mark base taken)) (taken : List String) :
    ∀ name ∈ freshAll mark bases taken, P name := by
  induction bases generalizing taken with
  | nil => exact fun name hname => absurd hname List.not_mem_nil
  | cons base bases ih =>
    intro name hname
    rw [freshAll] at hname
    rcases List.mem_cons.mp hname with rfl | hrest
    · exact hfresh base List.mem_cons_self taken
    · exact ih (fun base' hbase' => hfresh base' (List.mem_cons_of_mem _ hbase')) _ name hrest

/-! ## The first free form -/

/-- The name that the base gets if some names are in use: the base itself if it is free, otherwise the
numbered form with the smallest number from two on that is free. -/
def IsFirstFree (mark base : String) (used : List String) (name : String) : Prop :=
  (base ∉ used ∧ name = base) ∨
    base ∈ used ∧ ∃ n, 2 ≤ n ∧ name = numbered mark base n ∧ name ∉ used ∧
      ∀ k, 2 ≤ k → k < n → numbered mark base k ∈ used

theorem firstFree_eq_numbered (mark base : String) (taken : List String) (fuel n : Nat) :
    ∃ k, n ≤ k ∧ firstFree mark base taken fuel n = numbered mark base k ∧
      ∀ j, n ≤ j → j < k → numbered mark base j ∈ taken := by
  induction fuel generalizing n with
  | zero => exact ⟨n, Nat.le_refl n, rfl, fun j hle hlt => absurd hle (Nat.not_le_of_lt hlt)⟩
  | succ fuel ih =>
    rw [firstFree]
    split
    · rename_i htaken
      obtain ⟨k, hle, heq, hbelow⟩ := ih (n + 1)
      refine ⟨k, Nat.le_of_succ_le hle, heq, fun j hj hlt => ?_⟩
      rcases Nat.eq_or_lt_of_le hj with rfl | hj
      · exact htaken
      · exact hbelow j hj hlt
    · exact ⟨n, Nat.le_refl n, rfl, fun j hle hlt => absurd hle (Nat.not_le_of_lt hlt)⟩

theorem fresh_isFirstFree (mark base : String) (used : List String) :
    IsFirstFree mark base used (fresh mark base used) := by
  have hfree := fresh_notMem mark base used
  unfold fresh at hfree ⊢
  split at hfree
  · rename_i hused
    obtain ⟨n, hle, heq, hbelow⟩ := firstFree_eq_numbered mark base used used.length 2
    rw [if_pos hused]
    exact Or.inr ⟨hused, n, hle, heq, hfree, hbelow⟩
  · rename_i hunused
    rw [if_neg hunused]
    exact Or.inl ⟨hunused, rfl⟩

/-- There is one first free form. -/
theorem isFirstFree_iff {mark base name : String} {used : List String} :
    IsFirstFree mark base used name ↔ name = fresh mark base used := by
  refine ⟨fun h => ?_, fun h => h ▸ fresh_isFirstFree mark base used⟩
  rcases h with ⟨hfree, heq⟩ | ⟨hused, n, hle, heq, hfree, hbelow⟩
  · rw [fresh, if_neg hfree, heq]
  · rcases fresh_isFirstFree mark base used with ⟨hunused, _⟩ | ⟨_, k, hle', heq', hfree', hbelow'⟩
    · exact absurd hused hunused
    · rw [heq] at hfree
      rw [heq'] at hfree'
      rcases Nat.lt_trichotomy n k with hlt | rfl | hgt
      · exact absurd (hbelow' n hle hlt) hfree
      · rw [heq, heq']
      · exact absurd (hbelow k hle' hgt) hfree'

theorem freshAll_append (mark : String) (bases bases' taken : List String) :
    freshAll mark (bases ++ bases') taken = freshAll mark bases taken ++
      freshAll mark bases' ((freshAll mark bases taken).reverse ++ taken) := by
  induction bases generalizing taken with
  | nil => rfl
  | cons base bases ih => simp [freshAll, ih]

/-- Names that are fresh one after the other: each is the first free form of its base when the names
before it are in use. -/
theorem isFirstFree_of_map_eq {α : Type} {mark : String} {base name : α → String}
    {before after : List α} {a : α}
    (h : (before ++ a :: after).map name = freshAll mark ((before ++ a :: after).map base) []) :
    IsFirstFree mark (base a) (before.map name) (name a) := by
  rw [List.map_append, List.map_append, freshAll_append, List.map_cons, List.map_cons, freshAll] at h
  obtain ⟨hbefore, hrest⟩ := List.append_inj h (by simp)
  have hname := (List.cons.inj hrest).1
  rw [← hbefore] at hname
  rw [hname]
  have hfirst := fresh_isFirstFree mark (base a) ((before.map name).reverse ++ [])
  simpa only [IsFirstFree, List.append_nil, List.mem_reverse] using hfirst

/-- A base may as well be the name that it gets. -/
theorem freshAll_map_of_eq_or {α : Type} {mark : String} {base base' name : α → String}
    {l : List α} {taken : List String} (h : l.map name = freshAll mark (l.map base) taken)
    (hbase : ∀ a ∈ l, base' a = base a ∨ base' a = name a) :
    freshAll mark (l.map base') taken = l.map name := by
  induction l generalizing taken with
  | nil => rfl
  | cons a l ih =>
    rw [List.map_cons, List.map_cons, freshAll] at h
    obtain ⟨hname, hrest⟩ := List.cons.inj h
    have hfirst : fresh mark (base' a) taken = name a := by
      rcases hbase a List.mem_cons_self with hold | hnew
      · rw [hold, hname]
      · have hfree := fresh_notMem mark (base a) taken
        rw [← hname] at hfree
        rw [hnew, fresh, if_neg hfree]
    rw [← hname] at hrest
    rw [List.map_cons, List.map_cons, freshAll, hfirst,
      ih hrest fun a' ha' => hbase a' (List.mem_cons_of_mem _ ha')]

/-! ## Words that are no numbered forms -/

/-- The last character of the word is a letter, so that the word has no number at its end. -/
def EndsInLetter (word : String) : Prop :=
  word.toList.getLast?.any Char.isAlpha = true

instance (word : String) : Decidable (EndsInLetter word) :=
  inferInstanceAs (Decidable (_ = true))

theorem isAlpha_eq_false_of_isDigit {c : Char} (h : c.isDigit = true) : c.isAlpha = false := by
  delta Char.isDigit at h
  delta Char.isAlpha Char.isUpper Char.isLower
  grind

theorem not_endsInLetter_numbered (base : String) (n : Nat) : ¬ EndsInLetter (numbered "" base n) := by
  have hne : Nat.toDigits 10 n ≠ [] := Nat.toDigits_ne_nil
  have hdigit : ((Nat.toDigits 10 n).getLast hne).isDigit = true :=
    Nat.isDigit_of_mem_toDigits (by omega) (by omega) (List.getLast_mem hne)
  have hlast : (numbered "" base n).toList.getLast? = some ((Nat.toDigits 10 n).getLast hne) := by
    simp only [numbered, String.toList_append, Nat.toString_eq_ofList_toDigits, String.toList_ofList]
    rw [List.getLast?_append, List.getLast?_eq_some_getLast hne]
    rfl
  intro hletter
  rw [EndsInLetter, hlast, Option.any_some, isAlpha_eq_false_of_isDigit hdigit] at hletter
  cases hletter

/-- A word that ends in a letter is given to the first that asks for it, and to no other. -/
theorem fresh_eq_iff {word : String} (hword : EndsInLetter word) (base : String)
    (taken : List String) : fresh "" base taken = word ↔ base = word ∧ word ∉ taken := by
  rw [fresh]
  split
  · rename_i htaken
    obtain ⟨k, _, hk, _⟩ := firstFree_eq_numbered "" base taken taken.length 2
    constructor
    · intro heq
      rw [← heq, hk] at hword
      exact absurd hword (not_endsInLetter_numbered base k)
    · rintro ⟨rfl, hfree⟩
      exact absurd htaken hfree
  · rename_i hfree
    constructor
    · rintro rfl
      exact ⟨rfl, hfree⟩
    · exact And.left

theorem mem_freshAll_iff {word : String} (hword : EndsInLetter word) (bases taken : List String) :
    word ∈ freshAll "" bases taken ↔ word ∈ bases ∧ word ∉ taken := by
  induction bases generalizing taken with
  | nil => simp [freshAll]
  | cons base bases ih =>
    rw [freshAll, List.mem_cons, ih, List.mem_cons, List.mem_cons, eq_comm, fresh_eq_iff hword]
    by_cases hbase : base = word
    · by_cases htaken : word ∈ taken
      · simp [htaken]
      · simp [hbase, htaken]
    · simp [hbase, Ne.symm hbase]

end XsdTypes.Text
