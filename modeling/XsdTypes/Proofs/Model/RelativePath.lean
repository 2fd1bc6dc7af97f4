import XsdTypes.Model.Basic
import XsdTypes.Proofs.Place.Normal

/-!
# Ways between modules

The way from a module to another goes up to the nearest directory that holds both and down from there.
It is written after the module that it starts from, so what it leads to is found like the document at a
location: joined to the directory of that module and normalised. That gives the module at the end of the
way.
-/

namespace XsdTypes

namespace Text

theorem times_succ (count : Nat) (s : String) : times (count + 1) s = s ++ times count s := by
  apply String.toList_injective
  rw [String.toList_append, times, times, String.toList_ofList, String.toList_ofList,
    List.replicate_succ, List.flatten_cons]

/-- Steps up and names, one after the other. -/
theorem times_up_append_join (count : Nat) {names : List String} (hne : names ≠ []) :
    times count "../" ++ join "/" names = join "/" (List.replicate count ".." ++ names) := by
  induction count with
  | zero => exact String.empty_append
  | succ count ih =>
    have hrest : List.replicate count ".." ++ names ≠ [] := by simp [hne]
    rw [times_succ, String.append_assoc, ih, List.replicate_succ, List.cons_append, join_cons _ hrest]
    rfl

end Text

namespace UnixPath

theorem pushPart_up (isAbsolute : Bool) (before : List String) {last : String} (h : last ≠ "..") :
    pushPart isAbsolute (last :: before) ".." = before := by
  unfold pushPart
  rw [if_pos rfl]
  exact if_neg h

/-- Steps up take as many names away. -/
theorem foldl_pushPart_ups (isAbsolute : Bool) {names : List String} (hnames : ".." ∉ names)
    (before : List String) :
    (List.replicate names.length "..").foldl (pushPart isAbsolute) (names ++ before) = before := by
  induction names with
  | nil => rfl
  | cons name names ih =>
    rw [List.mem_cons, not_or] at hnames
    rw [List.length_cons, List.replicate_succ, List.foldl_cons, List.cons_append,
      pushPart_up _ _ (Ne.symm hnames.1), ih hnames.2]

/-- From directories up and down again: what is shared stays, and what only one side has is changed for
what the other has. -/
theorem normalize_detour (isAbsolute : Bool) {shared above below : List String}
    (hup : ".." ∉ shared ++ above) (hdown : ".." ∉ below) :
    normalize ⟨isAbsolute, (shared ++ above) ++ (List.replicate above.length ".." ++ below)⟩ =
      ⟨isAbsolute, shared ++ below⟩ := by
  have habove : ".." ∉ above.reverse := fun hmem =>
    hup (List.mem_append_right _ (List.mem_reverse.mp hmem))
  have hback := foldl_pushPart_ups isAbsolute habove shared.reverse
  rw [List.length_reverse] at hback
  rw [normalize]
  simp only
  rw [List.foldl_append, List.foldl_append, foldl_pushPart_names _ hup, List.append_nil,
    List.reverse_append, hback, foldl_pushPart_names _ hdown, List.reverse_append, List.reverse_reverse,
    List.reverse_reverse]

theorem ofText_here (path : String) : ofText ("./" ++ path) = ⟨false, (ofText path).parts⟩ := by
  have hsegments : Text.segments ("./" ++ path) = "." :: Text.segments path :=
    Text.segments_append_slash "." path
  have hrelative : Text.startsWith "/" ("./" ++ path) = false := by
    rw [Text.startsWith, String.toList_append]
    rfl
  rw [ofText, hrelative]
  change UnixPath.mk false ((Text.segments ("./" ++ path)).filter _) = _
  rw [hsegments, List.filter_cons_of_neg (by decide)]
  rfl

end UnixPath

/-! ## What two modules share -/

theorem take_commonLength (as bs : List String) :
    as.take (commonLength as bs) = bs.take (commonLength as bs) := by
  fun_induction commonLength as bs with
  | case1 as b bs ih => rw [List.take_succ_cons, List.take_succ_cons, ih]
  | case2 => rfl
  | case3 => rfl

theorem commonLength_le (as bs : List String) : commonLength as bs ≤ as.length := by
  fun_induction commonLength as bs with
  | case1 as b bs ih => exact Nat.succ_le_succ ih
  | case2 => exact Nat.zero_le _
  | case3 => exact Nat.zero_le _

/-- The directories that a module is in, from the outermost on. -/
def directories (path : String) : List String :=
  (Text.segments path).dropLast

/-- How many directories of a module the way to another one does not leave. -/
def sharedCount (start target : String) : Nat :=
  min (commonLength (directories start) (Text.segments target)) ((Text.segments target).length - 1)

theorem sharedCount_le (start target : String) :
    sharedCount start target ≤ (directories start).length :=
  Nat.le_trans (Nat.min_le_left _ _) (commonLength_le _ _)

theorem relativePath_eq (start target : String) : relativePath start target =
    (if (directories start).length - sharedCount start target = 0 then "./"
      else Text.times ((directories start).length - sharedCount start target) "../") ++
      Text.join "/" ((Text.segments target).drop (sharedCount start target)) := by
  rw [relativePath]
  split
  · rename_i hups
    exact (congrArg (· ++ _) (if_pos hups)).symm
  · rename_i hups
    exact (congrArg (· ++ _) (if_neg hups)).symm

/-- The way goes up from the directories that only the start is in, and down to what is left of the
target. -/
theorem exists_way (start target : String) : ∃ shared above below,
    directories start = shared ++ above ∧ Text.segments target = shared ++ below ∧ below ≠ [] ∧
      relativePath start target =
        (if above = [] then "./" else Text.times above.length "../") ++ Text.join "/" below := by
  have hcommon : sharedCount start target ≤
      commonLength (directories start) (Text.segments target) := Nat.min_le_left _ _
  have hlt : sharedCount start target < (Text.segments target).length := by
    have hpos := List.length_pos_iff.mpr (Text.segments_ne_nil target)
    have hcap : sharedCount start target ≤ (Text.segments target).length - 1 := Nat.min_le_right _ _
    omega
  have hshared : (directories start).take (sharedCount start target) =
      (Text.segments target).take (sharedCount start target) := by
    have htake := congrArg (List.take (sharedCount start target))
      (take_commonLength (directories start) (Text.segments target))
    rwa [List.take_take, List.take_take, Nat.min_eq_left hcommon] at htake
  refine ⟨(directories start).take (sharedCount start target),
    (directories start).drop (sharedCount start target),
    (Text.segments target).drop (sharedCount start target),
    (List.take_append_drop _ _).symm, ?_, ?_, ?_⟩
  · rw [hshared, List.take_append_drop]
  · rw [Ne, List.drop_eq_nil_iff, Nat.not_le]
    exact hlt
  · rw [relativePath_eq, List.length_drop]
    simp only [List.drop_eq_nil_iff, Nat.sub_eq_zero_iff_le]

/-! ## Where the way leads -/

theorem relativePath_startsWith (start target : String) :
    Text.startsWith "./" (relativePath start target) = true ∨
      Text.startsWith "../" (relativePath start target) = true := by
  have hstarts : ∀ first rest : String, Text.startsWith first (first ++ rest) = true := by
    intro first rest
    rw [Text.startsWith, String.toList_append, List.isPrefixOf_iff_prefix]
    exact List.prefix_append _ _
  obtain ⟨shared, above, below, _, _, _, hway⟩ := exists_way start target
  rw [hway]
  cases above with
  | nil => exact Or.inl (hstarts _ _)
  | cons dir above =>
    refine Or.inr ?_
    rw [if_neg (List.cons_ne_nil _ _), List.length_cons, Text.times_succ, String.append_assoc]
    exact hstarts _ _

theorem ofText_way {above below : List String} (hne : below ≠ [])
    (hbelow : ∀ name ∈ below, Text.IsName name ∧ '/' ∉ name.toList) :
    UnixPath.ofText ((if above = [] then "./" else Text.times above.length "../") ++
      Text.join "/" below) = ⟨false, List.replicate above.length ".." ++ below⟩ := by
  have hread : ∀ count, UnixPath.ofText (Text.join "/" (List.replicate count ".." ++ below)) =
      ⟨false, List.replicate count ".." ++ below⟩ := by
    intro count
    rw [← UnixPath.text_relative]
    refine UnixPath.ofText_text fun part hpart => ?_
    rcases List.mem_append.mp hpart with hup | hname
    · rw [(List.mem_replicate.mp hup).2]
      decide
    · obtain ⟨⟨hempty, hdot, _⟩, hslash⟩ := hbelow part hname
      exact ⟨hempty, hdot, hslash⟩
  cases above with
  | nil =>
    have hdown := hread 0
    rw [List.replicate_zero, List.nil_append] at hdown
    rw [if_pos rfl, UnixPath.ofText_here, hdown]
    rfl
  | cons dir above =>
    rw [if_neg (List.cons_ne_nil _ _), Text.times_up_append_join _ hne]
    exact hread _

/-- The way from a module to another starts with `./` or `../`. What it leads to from the directory of
the first module is the second one. The directories that it does not leave are directories of the first
module, and it goes up once for each of the others. -/
theorem relativePath_leads_to {start target : String} (hstart : Text.MadeOfNames start)
    (htarget : Text.MadeOfNames target) :
    (Text.startsWith "./" (relativePath start target) = true ∨
      Text.startsWith "../" (relativePath start target) = true) ∧
    (UnixPath.joined start (relativePath start target)).normalize.text = target ∧
    ∃ ups, sharedCount start target + ups = (directories start).length ∧
      relativePath start target = (if ups = 0 then "./" else Text.times ups "../") ++
        Text.join "/" ((Text.segments target).drop (sharedCount start target)) := by
  obtain ⟨shared, above, below, hdirs, hparts, hne, hway⟩ := exists_way start target
  have hup : ".." ∉ shared ++ above := by
    rw [← hdirs]
    exact fun hmem => (hstart _ (List.dropLast_subset _ hmem)).2.2 rfl
  have hnames : ∀ name ∈ below, Text.IsName name ∧ '/' ∉ name.toList := by
    intro name hname
    have hmem : name ∈ Text.segments target := hparts ▸ List.mem_append_right _ hname
    exact ⟨htarget name hmem, Text.slash_notMem_of_mem_segments hmem⟩
  have hdown : ".." ∉ below := fun hmem => (hnames _ hmem).1.2.2 rfl
  have hjoined : UnixPath.joined start (relativePath start target) =
      ⟨false, (shared ++ above) ++ (List.replicate above.length ".." ++ below)⟩ := by
    have hfile : (Text.segments start).isEmpty = false := by
      simpa using Text.segments_ne_nil start
    rw [UnixPath.joined, UnixPath.ofText_of_madeOfNames hstart, hway, ofText_way hne hnames, ← hdirs,
      UnixPath.parent?, hfile]
    rfl
  refine ⟨relativePath_startsWith start target, ?_,
    (directories start).length - sharedCount start target, Nat.add_sub_of_le (sharedCount_le _ _),
    relativePath_eq start target⟩
  rw [hjoined, UnixPath.normalize_detour _ hup hdown, ← hparts, UnixPath.text_relative,
    Text.join_segments]

theorem relativePath_leads_to_example : relativePath "a/b" "a" = "../a" ∧
    (UnixPath.joined "a/b" (relativePath "a/b" "a")).normalize.text = "a" ∧
    relativePath "a/b" "a/b" = "./b" ∧
    (UnixPath.joined "a/b" (relativePath "a/b" "a/b")).normalize.text = "a/b" :=
  ⟨by decide +kernel, (relativePath_leads_to (by decide +kernel) (by decide +kernel)).2.1,
    by decide +kernel, (relativePath_leads_to (by decide +kernel) (by decide +kernel)).2.1⟩

end XsdTypes
