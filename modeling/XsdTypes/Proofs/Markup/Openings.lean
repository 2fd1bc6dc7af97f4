import Mathlib.Tactic
import XsdTypes.Markup.Stream

/-!
# How many tags a text opens

Every construct of a markup text takes at least the bracket that opens it and opens at most one tag.
So a text opens no more tags than it has characters.
-/

namespace XsdTypes.Markup

/-- How many tags an event opens. -/
def Event.openings : Event → Nat
  | .opened _ _ => 1
  | _ => 0

/-- How many tags the events of a stream open. -/
def Stream.openings {α : Type} (s : Stream α) : Nat :=
  (s.items.map fun item => item.2.openings).sum

/-! ## What is left after a construct -/

section Rest

variable {seen cs content rest : List Char}

theorem commentEnd_length (h : commentEnd seen cs = some (content, rest)) :
    rest.length < cs.length := by
  fun_induction commentEnd seen cs with
  | case1 => cases h
  | case2 =>
    cases h
    exact Nat.lt_succ_self _
  | case3 _ _ _ _ ih => exact Nat.lt_succ_of_lt (ih h)

theorem cdataEnd_length (h : cdataEnd seen cs = some (content, rest)) : rest.length < cs.length := by
  fun_induction cdataEnd seen cs with
  | case1 => cases h
  | case2 =>
    cases h
    exact Nat.lt_succ_self _
  | case3 _ _ _ _ ih => exact Nat.lt_succ_of_lt (ih h)

theorem instructionEnd_length (h : instructionEnd seen cs = some (content, rest)) :
    rest.length < cs.length := by
  fun_induction instructionEnd seen cs with
  | case1 => cases h
  | case2 =>
    cases h
    exact Nat.lt_succ_self _
  | case3 _ _ _ _ ih => exact Nat.lt_succ_of_lt (ih h)

theorem doctypeEnd_length {depth : Nat} (h : doctypeEnd seen depth cs = some (content, rest)) :
    rest.length < cs.length := by
  fun_induction doctypeEnd seen depth cs with
  | case1 => cases h
  | case2 _ _ _ ih => exact Nat.lt_succ_of_lt (ih h)
  | case3 =>
    cases h
    exact Nat.lt_succ_self _
  | case4 _ _ _ _ ih => exact Nat.lt_succ_of_lt (ih h)
  | case5 _ _ _ _ _ _ ih => exact Nat.lt_succ_of_lt (ih h)

theorem tagEnd_length {quote : Option Char} (h : tagEnd seen quote cs = some (content, rest)) :
    rest.length < cs.length := by
  fun_induction tagEnd seen quote cs with
  | case1 => cases h
  | case2 _ _ _ _ ih => exact Nat.lt_succ_of_lt (ih h)
  | case3 =>
    cases h
    exact Nat.lt_succ_self _
  | case4 _ _ _ _ ih => exact Nat.lt_succ_of_lt (ih h)

theorem bangPiece_length {p : Piece} (h : bangPiece cs = .ok (p, content, rest)) :
    rest.length < cs.length := by
  unfold bangPiece at h
  split at h
  · split at h
    · rename_i hend
      split at h
      · cases h
        exact cdataEnd_length hend
      · cases h
    · cases h
  · split at h
    · rename_i hend
      split at h
      · cases h
        exact commentEnd_length hend
      · cases h
    · cases h
  · split at h
    · split at h
      · rename_i hend
        split at h
        · split at h
          · cases h
          · cases h
            exact doctypeEnd_length hend
        · cases h
      · cases h
    · cases h
  · cases h

theorem piece_length {p : Piece} (h : piece cs = .ok (p, content, rest)) :
    rest.length < cs.length := by
  unfold piece at h
  split at h
  · exact bangPiece_length h
  · split at h
    · rename_i hend
      split at h
      · cases h
        exact instructionEnd_length hend
      · cases h
    · cases h
  · split at h
    · cases h
    · rename_i hend
      have hlength := tagEnd_length hend
      split at h
      · cases h
        exact hlength
      · split at h <;> cases h <;> exact hlength

end Rest

/-! ## Streams -/

theorem Piece.events_openings {p : Piece} {enclosing enclosing' : List String} {events : List Event}
    (h : p.events enclosing = .ok (events, enclosing')) : (events.map Event.openings).sum ≤ 1 := by
  cases p with
  | silent =>
    cases h
    exact Nat.zero_le _
  | data content =>
    cases h
    exact Nat.zero_le _
  | openTag content selfClosing =>
    simp only [Piece.events] at h
    cases hparts : tagParts content with
    | error fault =>
      rw [hparts] at h
      cases h
    | ok parts =>
      rw [hparts] at h
      cases selfClosing <;> cases h <;> exact Nat.le_refl _
  | endTag name =>
    simp only [Piece.events] at h
    split at h
    · cases h
    · split at h
      · cases h
        exact Nat.zero_le _
      · cases h

theorem Stream.openings_after {α : Type} (items : List (α × Event)) (s : Stream α) :
    (s.after items).openings = (items.map fun item => item.2.openings).sum + s.openings := by
  simp [Stream.after, Stream.openings]

theorem streamFrom_openings (fuel : Nat) (enclosing : List String) (reached : Nat) (cs : List Char) :
    (streamFrom fuel enclosing reached cs).openings ≤ cs.length := by
  fun_induction streamFrom fuel enclosing reached cs with
  | case1 => exact Nat.zero_le _
  | case2 => exact Nat.zero_le _
  | case3 => exact Nat.zero_le _
  | case4 => exact Nat.zero_le _
  | case5 fuel enclosing reached cs p content rest hpiece events enclosing' hevents ih =>
    have hrest := piece_length hpiece
    have hone := Piece.events_openings hevents
    rw [Stream.openings_after, List.map_map, List.length_cons]
    exact Nat.le_trans (Nat.add_le_add hone ih) (by omega)
  | case6 => exact Nat.zero_le _
  | case7 fuel enclosing reached c cs hc run content hcontent ih =>
    rw [Stream.openings_after]
    refine Nat.le_trans (Nat.le_of_eq (Nat.zero_add _)) (Nat.le_trans ih ?_)
    exact (List.dropWhile_sublist _).length_le

/-- A text opens no more tags than it has characters. -/
theorem stream_openings (text : List Char) : (stream text).openings ≤ text.length := by
  have hoffset : (offsetStream text).openings ≤ text.length := by
    unfold offsetStream
    dsimp only
    split
    · exact Nat.le_succ_of_le (streamFrom_openings _ _ _ _)
    · exact streamFrom_openings _ _ _ _
  refine Nat.le_trans (Nat.le_of_eq ?_) hoffset
  unfold stream
  extract_lets s
  have hmap : s.openings = (offsetStream text).openings := by
    change ((offsetStream text).map _).openings = _
    simp only [Stream.openings, Stream.map, List.map_map]
    rfl
  split <;> exact hmap

end XsdTypes.Markup
