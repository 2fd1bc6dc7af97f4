import XsdTypes.Proofs.Place.Normal

/-!
# Canonical places

A path is in normal form if nothing can be left out of it: no part is empty or a single dot, and double
dots stand only at the start of a relative path. Locations are brought into this form before they are
compared. Their backslashes become slashes only afterwards, and each of them then cuts a part in two.
The place that comes out is in normal form exactly if the path with all its parts cut is.
-/

namespace XsdTypes

namespace UnixPath

variable {p : UnixPath} {s : String}

/-! ## Normal paths -/

/-- Nothing can be left out of the path. -/
structure IsNormal (p : UnixPath) : Prop where
  wellFormed : p.WellFormed
  ups_first : ∃ ups rest, p.parts = List.replicate ups ".." ++ rest ∧ ".." ∉ rest ∧
    (p.isAbsolute = true → ups = 0)

/-- Double dots are at the bottom of a stack, and at the root there are none. -/
theorem Stacked.ups_first {isAbsolute : Bool} {before : List String} (h : Stacked isAbsolute before) :
    ∃ ups rest, before.reverse = List.replicate ups ".." ++ rest ∧ ".." ∉ rest ∧
      (isAbsolute = true → ups = 0) := by
  induction before with
  | nil => exact ⟨0, [], rfl, List.not_mem_nil, fun _ => rfl⟩
  | cons part before ih =>
    obtain ⟨ups, rest, hbefore, hrest, hroot⟩ := ih h.1
    by_cases hup : part = ".."
    · obtain ⟨hrelative, hlast⟩ := h.2 hup
      -- the part before this one is a double dot as well, so none of the others is a name
      have hnone : rest = [] := by
        rcases List.eq_nil_or_concat' rest with hnil | ⟨names, name, hnames⟩
        · exact hnil
        · have hhead : before.head? = some name := by
            rw [← List.getLast?_reverse, hbefore, hnames, ← List.append_assoc, List.getLast?_concat]
          refine absurd ?_ hrest
          rw [← hlast name hhead, hnames]
          exact List.mem_append_right _ List.mem_cons_self
      refine ⟨ups + 1, [], ?_, List.not_mem_nil, fun habsolute => ?_⟩
      · rw [List.reverse_cons, hbefore, hnone, List.append_nil, List.append_nil, hup,
          List.replicate_succ']
      · rw [hrelative] at habsolute
        cases habsolute
    · refine ⟨ups, rest ++ [part], ?_, ?_, hroot⟩
      · rw [List.reverse_cons, hbefore, List.append_assoc]
      · simp [hrest, Ne.symm hup]

theorem isNormal_normalize (hp : p.WellFormed) : p.normalize.IsNormal where
  wellFormed := hp.normalize
  ups_first := (stacked_foldl p.isAbsolute p.parts).ups_first

/-- Double dots at the start of a relative path stay. -/
theorem foldl_pushPart_replicate (ups : Nat) :
    (List.replicate ups "..").foldl (pushPart false) [] = List.replicate ups ".." := by
  induction ups with
  | zero => rfl
  | succ ups ih =>
    rw [List.replicate_succ', List.foldl_append, ih, ← List.replicate_succ']
    cases ups with
    | zero => rfl
    | succ ups => rfl

theorem IsNormal.normalize_eq (h : p.IsNormal) : p.normalize = p := by
  obtain ⟨isAbsolute, parts⟩ := p
  obtain ⟨ups, rest, hparts, hrest, hroot⟩ := h.ups_first
  simp only at hparts hroot
  have hups : (List.replicate ups "..").foldl (pushPart isAbsolute) [] = List.replicate ups ".." := by
    cases isAbsolute with
    | true => rw [hroot rfl]; rfl
    | false => exact foldl_pushPart_replicate ups
  rw [normalize]
  simp only [hparts]
  rw [List.foldl_append, hups, foldl_pushPart_names _ hrest, List.reverse_append, List.reverse_reverse,
    List.reverse_replicate]

/-! ## Canonical texts -/

/-- The text is a path in normal form: between its slashes there is no single dot, double dots stand only
at the start of a relative path, and to normalise the path again changes nothing. -/
structure Canonical (s : String) : Prop where
  no_dot : "." ∉ Text.segments s
  ups_first : ∃ ups rest, Text.segments s = List.replicate ups ".." ++ rest ∧ ".." ∉ rest
  no_up : Text.startsWith "/" s = true → ".." ∉ Text.segments s
  fixed : withSlashes (normalText s) = s

theorem startsWith_root (parts : List String) : Text.startsWith "/" (text ⟨true, parts⟩) = true := by
  rw [text, if_pos rfl, Text.startsWith, String.toList_append]
  rfl

theorem startsWith_text (hp : p.WellFormed) : Text.startsWith "/" p.text = p.isAbsolute :=
  congrArg isAbsolute (ofText_text hp)

/-- What stands between the slashes of a path are its parts, but for what is before the root and what is
left of a path without parts. -/
theorem segments_text (hp : ∀ part ∈ p.parts, '/' ∉ part.toList) :
    Text.segments p.text =
      (if p.isAbsolute then [""] else []) ++ (if p.parts = [] then [""] else p.parts) := by
  have hjoin : Text.segments (Text.join "/" p.parts) = if p.parts = [] then [""] else p.parts := by
    split
    · rename_i hnone
      rw [hnone]
      rfl
    · rename_i hparts
      exact Text.segments_join hparts hp
  rw [text, ← hjoin]
  cases p.isAbsolute with
  | true => exact Text.segments_append_slash "" (Text.join "/" p.parts)
  | false => exact congrArg Text.segments String.empty_append

theorem canonical_text (h : p.IsNormal) (hplain : '\\' ∉ p.text.toList) : Canonical p.text := by
  have hsegments := segments_text fun part hpart => (h.wellFormed part hpart).2.2
  have hmem : ∀ segment ∈ Text.segments p.text, segment = "" ∨ segment ∈ p.parts := by
    intro segment hsegment
    rw [hsegments] at hsegment
    grind
  obtain ⟨ups, rest, hparts, hrest, hroot⟩ := h.ups_first
  have hnone : p.isAbsolute = true → ".." ∉ Text.segments p.text := by
    intro habsolute hup
    rcases hmem _ hup with hempty | hpart
    · exact absurd hempty (by decide)
    · rw [hparts, hroot habsolute] at hpart
      exact hrest hpart
  refine ⟨fun hdot => ?_, ?_, ?_, ?_⟩
  · rcases hmem _ hdot with hempty | hpart
    · exact absurd hempty (by decide)
    · exact (h.wellFormed _ hpart).2.1 rfl
  · cases habsolute : p.isAbsolute with
    | true => exact ⟨0, Text.segments p.text, rfl, hnone habsolute⟩
    | false =>
      rw [hsegments, habsolute, if_neg Bool.false_ne_true, List.nil_append]
      split
      · exact ⟨0, [""], rfl, by decide⟩
      · exact ⟨ups, rest, hparts, hrest⟩
  · rw [startsWith_text h.wellFormed]
    exact hnone
  · rw [normalText, ofText_text h.wellFormed, h.normalize_eq, withSlashes_eq_self hplain]

/-- A text that stays what it is when it is normalised is the text of a normal path. -/
theorem eq_text_of_fixed (h : withSlashes (normalText s) = s) :
    (ofText s).normalize.IsNormal ∧ s = (ofText s).normalize.text := by
  refine ⟨isNormal_normalize (wellFormed_ofText s), ?_⟩
  have hs : '\\' ∉ s.toList := by
    rw [← h]
    exact backslash_notMem_withSlashes _
  have hplain : '\\' ∉ (normalText s).toList :=
    backslash_notMem_text fun part hpart hc =>
      hs ((mem_of_mem_ofText (mem_of_mem_normalize hpart)).2 _ hc).1
  rw [withSlashes_eq_self hplain] at h
  exact h.symm

/-- The text of a path is canonical only if the path is normal, as long as it is read back as an absolute
path if it is one, and as a relative path if not. -/
theorem canonical_text_iff (hslash : ∀ part ∈ p.parts, '/' ∉ part.toList)
    (hplain : '\\' ∉ p.text.toList) (hroot : Text.startsWith "/" p.text = p.isAbsolute)
    (hparts : p.parts ≠ [""]) : Canonical p.text ↔ p.IsNormal := by
  refine ⟨fun h => ?_, fun h => canonical_text h hplain⟩
  obtain ⟨hnormal, htext⟩ := eq_text_of_fixed h.fixed
  -- the path that is read back has the same segments, so it has the same parts
  have habsolute : (ofText p.text).normalize.isAbsolute = p.isAbsolute := hroot
  have hsegments := congrArg Text.segments htext
  rw [segments_text hslash, segments_text fun part hpart => (hnormal.wellFormed part hpart).2.2,
    habsolute, List.append_cancel_left_eq] at hsegments
  have heq : p.parts = (ofText p.text).normalize.parts := by
    split at hsegments
    · split at hsegments
      · rename_i hnone hnone'
        rw [hnone, hnone']
      · refine absurd rfl (hnormal.wellFormed "" ?_).1
        rw [← hsegments]
        exact List.mem_cons_self
    · split at hsegments
      · exact absurd hsegments hparts
      · exact hsegments
  have hpath : p = (ofText p.text).normalize := by
    rcases p with ⟨isAbsolute, parts⟩
    rcases hread : (ofText (text ⟨isAbsolute, parts⟩)).normalize with ⟨isAbsolute', parts'⟩
    rw [hread] at habsolute heq
    simp only at habsolute heq
    rw [habsolute, heq]
  rw [hpath]
  exact hnormal

/-! ## Backslashes -/

/-- The path with its parts cut at their backslashes. -/
def cutAtBackslashes (p : UnixPath) : UnixPath :=
  { p with parts := p.parts.flatMap (Text.splitAt (· == '\\')) }

theorem withSlashes_eq_join (s : String) : withSlashes s = Text.join "/" (Text.splitAt (· == '\\') s) := by
  apply String.toList_injective
  rw [Text.toList_join, Text.splitAt, Text.map_toList_map_ofList, Chars.join_splitAt_eq_map,
    withSlashes, String.toList_map]

theorem withSlashes_append (s s' : String) : withSlashes (s ++ s') = withSlashes s ++ withSlashes s' := by
  apply String.toList_injective
  simp only [withSlashes, String.toList_map, String.toList_append, List.map_append]

theorem withSlashes_join (parts : List String) : withSlashes (Text.join "/" parts) =
    Text.join "/" (parts.flatMap (Text.splitAt (· == '\\'))) := by
  induction parts with
  | nil => exact withSlashes_eq_self (by decide)
  | cons part parts ih =>
    rw [List.flatMap_cons]
    cases parts with
    | nil => rw [List.flatMap_nil, List.append_nil, Text.join_singleton, withSlashes_eq_join]
    | cons next parts =>
      have hrest : (next :: parts).flatMap (Text.splitAt (· == '\\')) ≠ [] := by
        rw [List.flatMap_cons]
        exact List.append_ne_nil_of_left_ne_nil (Text.splitAt_ne_nil _ next) _
      have hslash : withSlashes "/" = "/" := withSlashes_eq_self (by decide)
      rw [Text.join_cons part (List.cons_ne_nil _ _), withSlashes_append, withSlashes_append, ih, hslash,
        Text.join_append (Text.splitAt_ne_nil _ part) hrest, withSlashes_eq_join]

/-- Backslashes that become slashes cut the parts that they are in. -/
theorem withSlashes_text (p : UnixPath) : withSlashes p.text = p.cutAtBackslashes.text := by
  have hroot : withSlashes (if p.isAbsolute then "/" else "") = if p.isAbsolute then "/" else "" :=
    withSlashes_eq_self (by cases p.isAbsolute <;> decide)
  rw [text, text, withSlashes_append, withSlashes_join, hroot]
  rfl

theorem slash_notMem_cutAtBackslashes (hp : p.WellFormed) :
    ∀ part ∈ p.cutAtBackslashes.parts, '/' ∉ part.toList := by
  intro piece hpiece
  obtain ⟨part, hpart, hmem⟩ := List.mem_flatMap.mp hpiece
  obtain ⟨cs, hcs, rfl⟩ := List.mem_map.mp hmem
  rw [String.toList_ofList]
  exact fun hslash => (hp part hpart).2.2 (Chars.mem_of_mem_splitAt hcs hslash).1

theorem cutAtBackslashes_parts_ne (hp : p.WellFormed) : p.cutAtBackslashes.parts ≠ [""] := by
  intro hempty
  rw [cutAtBackslashes] at hempty
  cases hparts : p.parts with
  | nil =>
    rw [hparts] at hempty
    cases hempty
  | cons part parts =>
    rw [hparts] at hempty
    simp only [List.flatMap_cons] at hempty
    rcases List.append_eq_singleton_iff.mp hempty with ⟨hnil, _⟩ | ⟨hone, _⟩
    · exact Text.splitAt_ne_nil _ part hnil
    · have hnone : withSlashes part = "" := by
        rw [withSlashes_eq_join, hone]
        rfl
      have hchars := congrArg String.toList hnone
      rw [withSlashes, String.toList_map] at hchars
      refine (hp part (hparts ▸ List.mem_cons_self)).1 (String.toList_eq_nil_iff.mp ?_)
      exact List.map_eq_nil_iff.mp hchars

/-- A path that does not begin with a backslash is absolute before and after its parts are cut, or it is
relative before and after. -/
theorem startsWith_withSlashes {s : String} (hs : Text.startsWith "\\" s = false) :
    Text.startsWith "/" (withSlashes s) = Text.startsWith "/" s := by
  rw [Text.startsWith, Text.startsWith, withSlashes, String.toList_map]
  rw [Text.startsWith] at hs
  cases hchars : s.toList with
  | nil => rfl
  | cons c cs =>
    have hne : c ≠ '\\' := by
      rintro rfl
      rw [hchars] at hs
      cases hs
    rw [List.map_cons, if_neg hne]
    rfl

theorem toList_of_startsWith {c : Char} {s : String}
    (hs : Text.startsWith (String.singleton c) s = true) : ∃ cs, s.toList = c :: cs := by
  rw [Text.startsWith, String.toList_singleton, List.isPrefixOf_iff_prefix] at hs
  obtain ⟨cs, hcs⟩ := hs
  exact ⟨cs, hcs.symm⟩

/-- A relative path whose text begins with a slash has an empty first part, and others after it. -/
theorem parts_of_startsWith (hrelative : p.isAbsolute = false)
    (hslash : ∀ part ∈ p.parts, '/' ∉ part.toList) (hfirst : Text.startsWith "/" p.text = true) :
    ∃ parts, parts ≠ [] ∧ p.parts = "" :: parts := by
  obtain ⟨cs, hcs⟩ := toList_of_startsWith (c := '/') hfirst
  rw [text, hrelative, if_neg Bool.false_ne_true, String.empty_append] at hcs
  cases hparts : p.parts with
  | nil =>
    rw [hparts] at hcs
    cases hcs
  | cons part parts =>
    have hpart := hslash part (hparts ▸ List.mem_cons_self)
    rw [hparts] at hcs
    cases parts with
    | nil =>
      rw [Text.join_singleton] at hcs
      exact absurd (hcs ▸ List.mem_cons_self) hpart
    | cons next parts =>
      rw [Text.join_cons part (List.cons_ne_nil _ _), String.toList_append, String.toList_append] at hcs
      cases hchars : part.toList with
      | nil =>
        rw [String.toList_eq_nil_iff.mp hchars]
        exact ⟨next :: parts, List.cons_ne_nil _ _, rfl⟩
      | cons c rest =>
        rw [hchars, List.cons_append, List.cons_append] at hcs
        obtain ⟨rfl, _⟩ := List.cons.inj hcs
        exact absurd (hchars ▸ List.mem_cons_self) hpart

/-- A path that begins with a backslash becomes an absolute one. -/
theorem withSlashes_text_of_backslash (hp : p.WellFormed) (hfirst : Text.startsWith "\\" p.text = true) :
    withSlashes p.text = text ⟨true, p.cutAtBackslashes.parts.tail⟩ := by
  obtain ⟨cs, hcs⟩ := toList_of_startsWith (c := '\\') hfirst
  have hrelative : p.cutAtBackslashes.isAbsolute = false := by
    change p.isAbsolute = false
    rw [← startsWith_text hp, Text.startsWith, hcs]
    rfl
  have hroot : Text.startsWith "/" p.cutAtBackslashes.text = true := by
    rw [← withSlashes_text, Text.startsWith, withSlashes, String.toList_map, hcs]
    rfl
  obtain ⟨parts, hne, hparts⟩ :=
    parts_of_startsWith hrelative (slash_notMem_cutAtBackslashes hp) hroot
  rw [withSlashes_text, text, text, hrelative, hparts, List.tail_cons, Text.join_cons "" hne,
    if_neg Bool.false_ne_true, if_pos rfl, String.empty_append, String.empty_append]

/-- The only path that becomes the root itself is a single backslash. -/
theorem eq_backslash_of_withSlashes {s : String} (hfirst : Text.startsWith "\\" s = true)
    (hs : withSlashes s = "/") : s = "\\" := by
  obtain ⟨cs, hcs⟩ := toList_of_startsWith (c := '\\') hfirst
  have hchars := congrArg String.toList hs
  rw [withSlashes, String.toList_map, hcs, List.map_cons] at hchars
  have hnil : cs = [] := List.map_eq_nil_iff.mp (List.cons.inj hchars).2
  apply String.toList_injective
  rw [hcs, hnil]
  rfl

/-- A path that begins with a backslash becomes canonical if it is a single backslash, or if what comes
after the backslash is a normal path from the root. -/
theorem canonical_of_backslash (hp : p.WellFormed) (hfirst : Text.startsWith "\\" p.text = true) :
    Canonical (withSlashes p.text) ↔
      p.text = "\\" ∨ IsNormal ⟨true, p.cutAtBackslashes.parts.tail⟩ := by
  by_cases hone : p.text = "\\"
  · have hroot : withSlashes p.text = text ⟨true, []⟩ := by
      rw [hone]
      decide +kernel
    have hnormal : IsNormal ⟨true, []⟩ :=
      ⟨fun part hpart => absurd hpart List.not_mem_nil, 0, [], rfl, List.not_mem_nil, fun _ => rfl⟩
    rw [hroot]
    exact iff_of_true (canonical_text hnormal (by decide)) (Or.inl hone)
  · have hplain := backslash_notMem_withSlashes p.text
    have htext := withSlashes_text_of_backslash hp hfirst
    rw [htext] at hplain ⊢
    rw [or_iff_right hone]
    refine canonical_text_iff (fun part hpart => slash_notMem_cutAtBackslashes hp part
      (List.mem_of_mem_tail hpart)) hplain ?_ fun htail => hone ?_
    · exact startsWith_root _
    · refine eq_backslash_of_withSlashes hfirst ?_
      simp only at htail
      rw [htext, htail]
      rfl

end UnixPath

namespace Place

open UnixPath

/-- Where a document at a plain path refers to a plain path, the path is normalised, and then its
backslashes become slashes. If there are none left, the place is canonical. In general it is canonical
exactly if the path is still normal with its parts cut at their backslashes. A backslash at its beginning
makes an absolute path of it, and then what comes after the backslash has to be normal. -/
theorem resolve_canonical {base location : String} (hbase : isUrl base = false)
    (hlocation : isUrl location = false) :
    let path := (joined base location).normalize
    path.IsNormal ∧ resolve base location = withSlashes path.text ∧
    ('\\' ∉ path.text.toList → Canonical (resolve base location)) ∧
    (Text.startsWith "\\" path.text = false →
      (Canonical (resolve base location) ↔ path.cutAtBackslashes.IsNormal)) ∧
    (Text.startsWith "\\" path.text = true →
      (Canonical (resolve base location) ↔
        path.text = "\\" ∨ IsNormal ⟨true, path.cutAtBackslashes.parts.tail⟩)) := by
  intro path
  have hnormal : path.IsNormal := isNormal_normalize (wellFormed_joined base location)
  have hplace : resolve base location = withSlashes path.text := resolve_of_plain hbase hlocation
  refine ⟨hnormal, hplace, fun hplain => ?_, fun hfirst => ?_, fun hfirst => ?_⟩
  · rw [hplace, withSlashes_eq_self hplain]
    exact canonical_text hnormal hplain
  · have hroot := startsWith_withSlashes hfirst
    have hplain := backslash_notMem_withSlashes path.text
    rw [startsWith_text hnormal.wellFormed] at hroot
    rw [withSlashes_text] at hroot hplain
    rw [hplace, withSlashes_text]
    exact canonical_text_iff (slash_notMem_cutAtBackslashes hnormal.wellFormed) hplain hroot
      (cutAtBackslashes_parts_ne hnormal.wellFormed)
  · rw [hplace]
    exact canonical_of_backslash hnormal.wellFormed hfirst

theorem resolve_canonical_example : isUrl "schemas/a.xsd" = false ∧
    isUrl "../common\\b.xsd" = false ∧
    resolve "schemas/a.xsd" "../common\\b.xsd" = "common/b.xsd" ∧
    Canonical (resolve "schemas/a.xsd" "../common\\b.xsd") := by
  have hbase : isUrl "schemas/a.xsd" = false := by decide +kernel
  have hlocation : isUrl "../common\\b.xsd" = false := by decide +kernel
  have hcut : (joined "schemas/a.xsd" "../common\\b.xsd").normalize.cutAtBackslashes =
      ⟨false, ["common", "b.xsd"]⟩ := by decide +kernel
  refine ⟨hbase, hlocation, by decide +kernel, ?_⟩
  refine ((resolve_canonical hbase hlocation).2.2.2.1 (by decide +kernel)).mpr ?_
  rw [hcut]
  exact ⟨by unfold WellFormed; decide, 0, ["common", "b.xsd"], rfl, by decide, fun _ => rfl⟩

/-- A double dot may be left in the place of a document. -/
theorem not_every_place_canonical : ¬ ∀ base location : String, isUrl base = false →
    isUrl location = false → Canonical (resolve base location) := by
  intro hall
  have hfixed := (hall "a.xsd" "x\\..\\b.xsd" (by decide +kernel) (by decide +kernel)).fixed
  exact absurd hfixed (by decide +kernel)

end Place

end XsdTypes
