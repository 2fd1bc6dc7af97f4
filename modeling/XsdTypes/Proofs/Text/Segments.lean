import Mathlib.Data.List.Basic
import XsdTypes.Text.Basic

/-!
# Segments of paths

A path is cut into segments at its slashes. The segments put together are the path again, so that a
path and its segments determine each other. What is written behind a path belongs to its last segment,
unless there is a slash in it.
-/

namespace XsdTypes

/-! ## Cutting and joining -/

namespace Chars

theorem splitAt_ne_nil (isSep : Char → Bool) (cs : List Char) : splitAt isSep cs ≠ [] := by
  cases cs with
  | nil => exact List.cons_ne_nil _ _
  | cons c cs =>
    rw [splitAt]
    split
    · exact List.cons_ne_nil _ _
    · split <;> exact List.cons_ne_nil _ _

/-- The pieces are made of the characters that are no separators. -/
theorem mem_of_mem_splitAt {isSep : Char → Bool} {cs piece : List Char}
    (hpiece : piece ∈ splitAt isSep cs) {c : Char} (hc : c ∈ piece) :
    c ∈ cs ∧ isSep c = false := by
  induction cs generalizing piece with
  | nil =>
    rw [splitAt, List.mem_singleton] at hpiece
    rw [hpiece] at hc
    cases hc
  | cons first cs ih =>
    rw [splitAt] at hpiece
    cases hsep : isSep first with
    | true =>
      rw [hsep, if_pos rfl] at hpiece
      rcases List.mem_cons.mp hpiece with rfl | hrest
      · cases hc
      · exact (ih hrest hc).imp_left (List.mem_cons_of_mem _)
    | false =>
      rw [hsep, if_neg Bool.false_ne_true] at hpiece
      cases hsplit : splitAt isSep cs with
      | nil => exact absurd hsplit (splitAt_ne_nil isSep cs)
      | cons head pieces =>
        rw [hsplit] at hpiece ih
        rcases List.mem_cons.mp hpiece with rfl | hrest
        · rcases List.mem_cons.mp hc with rfl | hc
          · exact ⟨List.mem_cons_self, hsep⟩
          · exact (ih List.mem_cons_self hc).imp_left (List.mem_cons_of_mem _)
        · exact (ih (List.mem_cons_of_mem _ hrest) hc).imp_left (List.mem_cons_of_mem _)

theorem splitAt_of_forall {isSep : Char → Bool} {cs : List Char}
    (hcs : ∀ c ∈ cs, isSep c = false) : splitAt isSep cs = [cs] := by
  induction cs with
  | nil => rfl
  | cons c cs ih =>
    rw [splitAt, hcs c List.mem_cons_self, if_neg Bool.false_ne_true,
      ih fun c' hc' => hcs c' (List.mem_cons_of_mem _ hc')]

theorem splitAt_append (isSep : Char → Bool) {sep : Char} (hsep : isSep sep = true)
    (before after : List Char) :
    splitAt isSep (before ++ sep :: after) = splitAt isSep before ++ splitAt isSep after := by
  induction before with
  | nil =>
    change splitAt isSep (sep :: after) = [] :: splitAt isSep after
    rw [splitAt, if_pos hsep]
  | cons c before ih =>
    rw [List.cons_append, splitAt, splitAt, ih]
    split
    · rfl
    · cases hsplit : splitAt isSep before with
      | nil => exact absurd hsplit (splitAt_ne_nil isSep before)
      | cons piece pieces => rfl

theorem join_cons (sep piece : List Char) {pieces : List (List Char)} (hne : pieces ≠ []) :
    join sep (piece :: pieces) = piece ++ sep ++ join sep pieces := by
  cases pieces with
  | nil => exact absurd rfl hne
  | cons next pieces => rfl

theorem splitAt_join {isSep : Char → Bool} {sep : Char} (hsep : isSep sep = true)
    {pieces : List (List Char)} (hne : pieces ≠ [])
    (hpieces : ∀ piece ∈ pieces, ∀ c ∈ piece, isSep c = false) :
    splitAt isSep (join [sep] pieces) = pieces := by
  induction pieces with
  | nil => exact absurd rfl hne
  | cons piece pieces ih =>
    have hpiece := hpieces piece List.mem_cons_self
    cases pieces with
    | nil => exact splitAt_of_forall hpiece
    | cons next pieces =>
      rw [join_cons _ _ (List.cons_ne_nil _ _), List.append_assoc, List.singleton_append,
        splitAt_append isSep hsep, splitAt_of_forall hpiece,
        ih (List.cons_ne_nil _ _) fun piece' hpiece' => hpieces piece' (List.mem_cons_of_mem _ hpiece')]
      rfl

theorem mem_of_mem_join {sep : List Char} {pieces : List (List Char)} {c : Char}
    (hc : c ∈ join sep pieces) : c ∈ sep ∨ ∃ piece ∈ pieces, c ∈ piece := by
  induction pieces with
  | nil => cases hc
  | cons piece pieces ih =>
    cases pieces with
    | nil => exact Or.inr ⟨piece, List.mem_singleton.mpr rfl, hc⟩
    | cons next pieces =>
      rw [join_cons _ _ (List.cons_ne_nil _ _), List.mem_append, List.mem_append] at hc
      rcases hc with (hc | hc) | hc
      · exact Or.inr ⟨piece, List.mem_cons_self, hc⟩
      · exact Or.inl hc
      · rcases ih hc with hc | ⟨piece', hpiece', hc⟩
        · exact Or.inl hc
        · exact Or.inr ⟨piece', List.mem_cons_of_mem _ hpiece', hc⟩

/-- What has no separator in it belongs to the last piece. -/
theorem splitAt_append_of_forall (isSep : Char → Bool) (before : List Char) {after : List Char}
    (hafter : ∀ c ∈ after, isSep c = false) :
    ∃ init last, splitAt isSep before = init ++ [last] ∧
      splitAt isSep (before ++ after) = init ++ [last ++ after] := by
  induction before with
  | nil => exact ⟨[], [], rfl, splitAt_of_forall hafter⟩
  | cons c before ih =>
    obtain ⟨init, last, hbefore, happend⟩ := ih
    rw [List.cons_append, splitAt, splitAt, hbefore, happend]
    split
    · exact ⟨[] :: init, last, rfl, rfl⟩
    · cases init with
      | nil => exact ⟨[], c :: last, rfl, rfl⟩
      | cons piece init => exact ⟨(c :: piece) :: init, last, rfl, rfl⟩

/-- To cut at a character and put together with another one is to replace the first by the second. -/
theorem join_splitAt_eq_map (sep sep' : Char) (cs : List Char) :
    join [sep'] (splitAt (· == sep) cs) = cs.map fun c => if c = sep then sep' else c := by
  induction cs with
  | nil => rfl
  | cons c cs ih =>
    rw [splitAt, List.map_cons, ← ih]
    cases hsplit : splitAt (· == sep) cs with
    | nil => exact absurd hsplit (splitAt_ne_nil _ cs)
    | cons piece pieces =>
      split
      · rename_i hsep
        rw [if_pos (eq_of_beq hsep)]
        rfl
      · rename_i hsep
        rw [if_neg fun heq => hsep (beq_of_eq heq)]
        cases pieces with
        | nil => rfl
        | cons next pieces => rfl

theorem join_splitAt (sep : Char) (cs : List Char) : join [sep] (splitAt (· == sep) cs) = cs := by
  rw [join_splitAt_eq_map]
  refine (List.map_congr_left fun c _ => ?_).trans (List.map_id cs)
  split
  · rename_i heq
    exact heq.symm
  · rfl

theorem join_append (sep : List Char) {pieces pieces' : List (List Char)} (hne : pieces ≠ [])
    (hne' : pieces' ≠ []) :
    join sep (pieces ++ pieces') = join sep pieces ++ sep ++ join sep pieces' := by
  induction pieces with
  | nil => exact absurd rfl hne
  | cons piece pieces ih =>
    cases pieces with
    | nil => exact join_cons sep piece hne'
    | cons next pieces =>
      have hrest := ih (List.cons_ne_nil _ _)
      have hmore : (next :: pieces) ++ pieces' ≠ [] := List.cons_ne_nil _ _
      rw [List.cons_append, join_cons sep piece hmore, hrest,
        join_cons sep piece (List.cons_ne_nil next pieces)]
      simp only [List.append_assoc]

end Chars

/-! ## Segments -/

namespace Text

variable {path : String}

/-- What stands between the slashes of a path. -/
def segments (path : String) : List String :=
  splitAt (· == '/') path

theorem segments_eq (path : String) :
    segments path = (Chars.splitAt (· == '/') path.toList).map String.ofList := rfl

theorem splitAt_ne_nil (isSep : Char → Bool) (s : String) : splitAt isSep s ≠ [] := by
  rw [splitAt, Ne, List.map_eq_nil_iff]
  exact Chars.splitAt_ne_nil _ _

theorem segments_ne_nil (path : String) : segments path ≠ [] :=
  splitAt_ne_nil _ path

theorem slash_notMem_of_mem_segments {segment : String} (h : segment ∈ segments path) :
    '/' ∉ segment.toList := by
  obtain ⟨piece, hpiece, rfl⟩ := List.mem_map.mp h
  rw [String.toList_ofList]
  exact fun hslash => ne_of_beq_false (Chars.mem_of_mem_splitAt hpiece hslash).2 rfl

theorem map_toList_map_ofList (pieces : List (List Char)) :
    (pieces.map String.ofList).map String.toList = pieces := by
  rw [List.map_map]
  exact (List.map_congr_left fun cs _ => String.toList_ofList).trans (List.map_id pieces)

theorem map_ofList_map_toList (parts : List String) :
    (parts.map String.toList).map String.ofList = parts := by
  rw [List.map_map]
  exact (List.map_congr_left fun part _ => String.ofList_toList).trans (List.map_id parts)

theorem toList_join (parts : List String) :
    (join "/" parts).toList = Chars.join ['/'] (parts.map String.toList) := by
  rw [join, String.toList_ofList]
  rfl

theorem join_append {parts parts' : List String} (hne : parts ≠ []) (hne' : parts' ≠ []) :
    join "/" (parts ++ parts') = join "/" parts ++ "/" ++ join "/" parts' := by
  apply String.toList_injective
  rw [String.toList_append, String.toList_append, toList_join, toList_join, toList_join,
    List.map_append, Chars.join_append]
  · rfl
  · simpa using hne
  · simpa using hne'

theorem join_singleton (part : String) : join "/" [part] = part :=
  String.ofList_toList

theorem join_cons (part : String) {parts : List String} (hne : parts ≠ []) :
    join "/" (part :: parts) = part ++ "/" ++ join "/" parts := by
  rw [← List.singleton_append, join_append (List.cons_ne_nil _ _) hne, join_singleton]

theorem join_segments (path : String) : join "/" (segments path) = path := by
  apply String.toList_injective
  rw [toList_join, segments_eq, map_toList_map_ofList, Chars.join_splitAt]

theorem segments_injective : Function.Injective segments := by
  intro path path' h
  rw [← join_segments path, h, join_segments]

theorem segments_join {parts : List String} (hne : parts ≠ [])
    (hparts : ∀ part ∈ parts, '/' ∉ part.toList) : segments (join "/" parts) = parts := by
  have hpieces : ∀ piece ∈ parts.map String.toList, ∀ c ∈ piece, (c == '/') = false := by
    intro piece hpiece c hc
    obtain ⟨part, hpart, rfl⟩ := List.mem_map.mp hpiece
    exact beq_false_of_ne fun hslash => hparts part hpart (hslash ▸ hc)
  have hsplit : Chars.splitAt (· == '/') (Chars.join ['/'] (parts.map String.toList)) =
      parts.map String.toList := by
    refine Chars.splitAt_join ?_ (by simpa using hne) hpieces
    exact beq_self_eq_true '/'
  rw [segments_eq, toList_join, hsplit, map_ofList_map_toList]

theorem segments_append_slash (before after : String) :
    segments (before ++ "/" ++ after) = segments before ++ segments after := by
  have hchars : (before ++ "/" ++ after).toList = before.toList ++ '/' :: after.toList := by
    rw [String.toList_append, String.toList_append, List.append_assoc]
    rfl
  rw [segments_eq, hchars, Chars.splitAt_append (· == '/') (beq_self_eq_true '/'), List.map_append]
  rfl

/-- What has no slash in it belongs to the last segment. -/
theorem segments_append (path : String) {ending : String} (hending : '/' ∉ ending.toList) :
    ∃ init last, segments path = init ++ [last] ∧
      segments (path ++ ending) = init ++ [last ++ ending] := by
  have hplain : ∀ c ∈ ending.toList, (c == '/') = false := fun c hc =>
    beq_false_of_ne fun hslash => hending (hslash ▸ hc)
  obtain ⟨init, last, hpath, happend⟩ :=
    Chars.splitAt_append_of_forall (· == '/') path.toList hplain
  refine ⟨init.map String.ofList, String.ofList last, ?_, ?_⟩
  · rw [segments_eq, hpath, List.map_append]
    rfl
  · rw [segments_eq, String.toList_append, happend, List.map_append]
    have hlast : String.ofList (last ++ ending.toList) = String.ofList last ++ ending := by
      apply String.toList_injective
      rw [String.toList_append, String.toList_ofList, String.toList_ofList]
    exact congrArg (fun segment => init.map String.ofList ++ [segment]) hlast

/-! ## Paths made of names -/

/-- The segment is the name of a file or a directory. -/
def IsName (segment : String) : Prop :=
  segment ≠ "" ∧ segment ≠ "." ∧ segment ≠ ".."

instance (segment : String) : Decidable (IsName segment) :=
  inferInstanceAs (Decidable (_ ∧ _ ∧ _))

/-- All segments of the path are names. -/
def MadeOfNames (path : String) : Prop :=
  ∀ segment ∈ segments path, IsName segment

instance (path : String) : Decidable (MadeOfNames path) :=
  inferInstanceAs (Decidable (∀ segment ∈ segments path, IsName segment))

end Text

end XsdTypes
