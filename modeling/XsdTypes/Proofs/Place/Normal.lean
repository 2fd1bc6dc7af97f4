import XsdTypes.Place.Resolve
import XsdTypes.Proofs.Text.Segments

/-!
# Normal paths

A path that has been normalised is normal: to normalise it once more changes nothing. The location of
a document is normalised when it is resolved, so it is written in one way only, whatever way the
document that refers to it writes it. Backslashes are the exception, because they become slashes after
the path has been normalised.
-/

namespace XsdTypes

namespace UnixPath

variable {p : UnixPath}

/-- No part is empty, a single dot, or made of two parts. -/
def WellFormed (p : UnixPath) : Prop :=
  ∀ part ∈ p.parts, part ≠ "" ∧ part ≠ "." ∧ '/' ∉ part.toList

/-! ## Reading what is written -/

theorem mem_of_mem_ofText {s part : String} (hpart : part ∈ (ofText s).parts) :
    (part ≠ "" ∧ part ≠ ".") ∧ ∀ c ∈ part.toList, c ∈ s.toList ∧ c ≠ '/' := by
  obtain ⟨hmem, hkept⟩ := List.mem_filter.mp hpart
  refine ⟨by simpa using hkept, fun c hc => ?_⟩
  obtain ⟨piece, hpiece, rfl⟩ := List.mem_map.mp hmem
  rw [String.toList_ofList] at hc
  exact (Chars.mem_of_mem_splitAt hpiece hc).imp_right ne_of_beq_false

theorem wellFormed_ofText (s : String) : (ofText s).WellFormed := by
  intro part hpart
  obtain ⟨⟨hempty, hdot⟩, hchars⟩ := mem_of_mem_ofText hpart
  exact ⟨hempty, hdot, fun hslash => (hchars _ hslash).2 rfl⟩

/-- The characters of a path are slashes and those of its parts. -/
theorem mem_of_mem_text {c : Char} (hc : c ∈ p.text.toList) :
    c = '/' ∨ ∃ part ∈ p.parts, c ∈ part.toList := by
  rw [text, String.toList_append, List.mem_append] at hc
  rcases hc with hroot | hjoined
  · split at hroot
    · exact Or.inl (List.mem_singleton.mp hroot)
    · cases hroot
  · rw [Text.join, String.toList_ofList] at hjoined
    rcases Chars.mem_of_mem_join hjoined with hslash | ⟨piece, hpiece, hc⟩
    · exact Or.inl (List.mem_singleton.mp hslash)
    · obtain ⟨part, hpart, rfl⟩ := List.mem_map.mp hpiece
      exact Or.inr ⟨part, hpart, hc⟩

/-- What is written between slashes is read back, if nothing is dropped. -/
theorem filter_splitAt_join (hp : p.WellFormed) :
    ((Chars.splitAt (· == '/') (Chars.join ['/'] (p.parts.map String.toList))).map String.ofList).filter
      (fun part => part ≠ "" && part ≠ ".") = p.parts := by
  by_cases hparts : p.parts = []
  · rw [hparts]
    decide
  · have hsegments := Text.segments_join hparts fun part hpart => (hp part hpart).2.2
    rw [Text.segments_eq, Text.toList_join] at hsegments
    rw [hsegments, List.filter_eq_self]
    intro part hpart
    obtain ⟨hempty, hdot, _⟩ := hp part hpart
    simp [hempty, hdot]

/-- A relative path does not start with a slash. -/
theorem head?_join_ne (hp : p.WellFormed) :
    (Chars.join ['/'] (p.parts.map String.toList)).head? ≠ some '/' := by
  cases hparts : p.parts with
  | nil => exact fun h => by cases h
  | cons part parts =>
    obtain ⟨hempty, _, hslash⟩ := hp part (hparts ▸ List.mem_cons_self)
    cases hchars : part.toList with
    | nil => exact absurd (String.toList_eq_nil_iff.mp hchars) hempty
    | cons c cs =>
      rw [hchars, List.mem_cons, not_or] at hslash
      have hne : some c ≠ some '/' := fun heq => hslash.1 (Option.some.inj heq).symm
      cases parts with
      | nil => simpa [Chars.join, hchars] using hne
      | cons next parts => simpa [Chars.join, hchars] using hne

theorem ofText_text (hp : p.WellFormed) : ofText p.text = p := by
  obtain ⟨isAbsolute, parts⟩ := p
  have hparts := filter_splitAt_join hp
  have hhead := head?_join_ne hp
  simp only at hparts hhead
  have hslash : "/".toList = ['/'] := by decide
  cases isAbsolute with
  | true =>
    have htext : (text ⟨true, parts⟩).toList =
        '/' :: Chars.join ['/'] (parts.map String.toList) := by
      rw [text, String.toList_append, Text.join, String.toList_ofList, hslash, if_pos rfl, hslash]
      rfl
    rw [ofText, Text.startsWith, Text.splitAt, htext, Chars.splitAt, if_pos (beq_self_eq_true _),
      List.map_cons, List.filter_cons_of_neg (by decide), hparts]
    rfl
  | false =>
    have htext : (text ⟨false, parts⟩).toList = Chars.join ['/'] (parts.map String.toList) := by
      rw [text, String.toList_append, Text.join, String.toList_ofList, hslash]
      rfl
    have hrelative : "/".toList.isPrefixOf (Chars.join ['/'] (parts.map String.toList)) = false := by
      cases hchars : Chars.join ['/'] (parts.map String.toList) with
      | nil => rfl
      | cons c cs =>
        rw [hchars] at hhead
        have hne : ('/' == c) = false := beq_false_of_ne fun heq => hhead (congrArg some heq.symm)
        change (('/' == c) && [].isPrefixOf cs) = false
        rw [hne, Bool.false_and]
    rw [ofText, Text.startsWith, Text.splitAt, htext, hparts, hrelative]

theorem text_relative (parts : List String) : text ⟨false, parts⟩ = Text.join "/" parts := by
  rw [text]
  exact String.empty_append

/-- A path made of names is read as these names. -/
theorem ofText_of_madeOfNames {path : String} (h : Text.MadeOfNames path) :
    ofText path = ⟨false, Text.segments path⟩ := by
  have hrelative : Text.startsWith "/" path = false := by
    rw [Text.startsWith]
    cases hchars : path.toList with
    | nil => rfl
    | cons c cs =>
      change (('/' == c) && [].isPrefixOf cs) = false
      rw [Bool.and_eq_false_iff]
      refine Or.inl (beq_false_of_ne ?_)
      rintro rfl
      have hempty : "" ∈ Text.segments path := by
        rw [Text.segments_eq, hchars, Chars.splitAt, if_pos (beq_self_eq_true _)]
        exact List.mem_cons_self
      exact (h "" hempty).1 rfl
  have hparts : (Text.segments path).filter (fun part => part ≠ "" && part ≠ ".") =
      Text.segments path := by
    rw [List.filter_eq_self]
    intro part hpart
    obtain ⟨hempty, hdot, _⟩ := h part hpart
    simp [hempty, hdot]
  rw [ofText, hrelative]
  exact congrArg (UnixPath.mk false) hparts

/-! ## Normalising -/

theorem pushPart_name (isAbsolute : Bool) (before : List String) {part : String} (h : part ≠ "..") :
    pushPart isAbsolute before part = part :: before := if_neg h

/-- Names are put on top of the parts before them. -/
theorem foldl_pushPart_names (isAbsolute : Bool) {names : List String} (hnames : ".." ∉ names)
    (before : List String) :
    names.foldl (pushPart isAbsolute) before = names.reverse ++ before := by
  induction names generalizing before with
  | nil => rfl
  | cons name names ih =>
    rw [List.mem_cons, not_or] at hnames
    rw [List.foldl_cons, pushPart_name _ _ (Ne.symm hnames.1), ih hnames.2, List.reverse_cons,
      List.append_assoc]
    rfl

/-- Parts, latest first, from which no double dot takes another part away. -/
def Stacked (isAbsolute : Bool) : List String → Prop
  | [] => True
  | part :: before => Stacked isAbsolute before ∧
    (part = ".." → isAbsolute = false ∧ ∀ last ∈ before.head?, last = "..")

theorem Stacked.pushPart {isAbsolute : Bool} {before : List String}
    (h : Stacked isAbsolute before) (part : String) :
    Stacked isAbsolute (UnixPath.pushPart isAbsolute before part) := by
  unfold UnixPath.pushPart
  split
  · rename_i hup
    cases before with
    | nil =>
      cases isAbsolute with
      | true => exact trivial
      | false => exact ⟨trivial, fun _ => ⟨rfl, fun last hlast => by cases hlast⟩⟩
    | cons last rest =>
      simp only
      split
      · rename_i hlast
        refine ⟨h, fun _ => ⟨(h.2 hlast).1, fun last' hlast' => ?_⟩⟩
        cases hlast'
        exact hlast
      · exact h.1
  · rename_i hname
    exact ⟨h, fun hup => absurd hup hname⟩

theorem pushPart_of_stacked {isAbsolute : Bool} {before : List String} {part : String}
    (h : Stacked isAbsolute (part :: before)) :
    pushPart isAbsolute before part = part :: before := by
  unfold pushPart
  split
  · rename_i hup
    obtain ⟨hrelative, hlast⟩ := h.2 hup
    cases before with
    | nil => rw [hrelative, hup]; rfl
    | cons last rest =>
      simp only
      rw [if_pos (hlast last rfl), hup]
  · rfl

theorem stacked_foldl (isAbsolute : Bool) (parts : List String) :
    Stacked isAbsolute (parts.foldl (pushPart isAbsolute) []) :=
  List.foldlRecOn (motive := Stacked isAbsolute) parts (pushPart isAbsolute) trivial
    fun _ hbefore part _ => hbefore.pushPart part

theorem foldl_reverse_of_stacked {isAbsolute : Bool} {before : List String}
    (h : Stacked isAbsolute before) : before.reverse.foldl (pushPart isAbsolute) [] = before := by
  induction before with
  | nil => rfl
  | cons part before ih =>
    rw [List.reverse_cons, List.foldl_append, ih h.1]
    exact pushPart_of_stacked h

theorem normalize_normalize (p : UnixPath) : p.normalize.normalize = p.normalize := by
  simp only [normalize, foldl_reverse_of_stacked (stacked_foldl _ _)]

/-- Normalising only takes parts away. -/
theorem mem_of_mem_normalize {part : String} (hpart : part ∈ p.normalize.parts) :
    part ∈ p.parts := by
  have hsubset : p.parts.foldl (pushPart p.isAbsolute) [] ⊆ p.parts := by
    refine List.foldlRecOn (motive := fun before => before ⊆ p.parts) p.parts _
      (List.nil_subset _) fun before hbefore part hpart => ?_
    unfold pushPart
    split
    · rename_i hup
      cases before with
      | nil =>
        simp only
        split
        · exact List.nil_subset _
        · exact List.cons_subset.mpr ⟨hup ▸ hpart, List.nil_subset _⟩
      | cons last rest =>
        simp only
        split
        · exact List.cons_subset.mpr ⟨hup ▸ hpart, hbefore⟩
        · exact fun part' hpart' => hbefore (List.mem_cons_of_mem _ hpart')
    · exact List.cons_subset.mpr ⟨hpart, hbefore⟩
  exact hsubset (List.mem_reverse.mp hpart)

theorem WellFormed.normalize (hp : p.WellFormed) : p.normalize.WellFormed := fun part hpart =>
  hp part (mem_of_mem_normalize hpart)

/-! ## Locations -/

/-- The path without `.` and `..`, as far as they can be left out without a look at the files. -/
def normalText (path : String) : String :=
  (ofText path).normalize.text

/-- The path of a location, as seen from the file that refers to it. -/
def joined (base location : String) : UnixPath :=
  match (ofText base).parent? with
  | some dir => dir.join (ofText location)
  | none => ofText location

/-- The text with slashes for all backslashes. -/
def withSlashes (s : String) : String :=
  s.map fun c => if c = '\\' then '/' else c

theorem withSlashes_eq_self {s : String} (h : '\\' ∉ s.toList) : withSlashes s = s := by
  apply String.toList_injective
  rw [withSlashes, String.toList_map]
  refine (List.map_congr_left fun c hc => ?_).trans (List.map_id _)
  refine if_neg ?_
  rintro rfl
  exact h hc

theorem backslash_notMem_withSlashes (s : String) : '\\' ∉ (withSlashes s).toList := by
  rw [withSlashes, String.toList_map, List.mem_map]
  rintro ⟨c, _, hc⟩
  split at hc
  · exact absurd hc (by decide)
  · rename_i hne
    exact hne hc

theorem resolve_eq (base location : String) :
    resolve base location = withSlashes (joined base location).normalize.text := rfl

theorem mem_of_mem_joined {base location part : String}
    (hpart : part ∈ (joined base location).parts) :
    part ∈ (ofText base).parts ∨ part ∈ (ofText location).parts := by
  unfold joined parent? at hpart
  split at hpart
  · rename_i dir hdir
    split at hdir
    · cases hdir
    · cases hdir
      unfold join at hpart
      split at hpart
      · exact Or.inr hpart
      · exact (List.mem_append.mp hpart).imp_left fun hmem => List.dropLast_subset _ hmem
  · exact Or.inr hpart

theorem wellFormed_joined (base location : String) : (joined base location).WellFormed := by
  intro part hpart
  rcases mem_of_mem_joined hpart with hmem | hmem
  · exact wellFormed_ofText base part hmem
  · exact wellFormed_ofText location part hmem

/-- Where no part has a backslash, none is in the path. -/
theorem backslash_notMem_text (h : ∀ part ∈ p.parts, '\\' ∉ part.toList) : '\\' ∉ p.text.toList := by
  intro hc
  rcases mem_of_mem_text hc with hslash | ⟨part, hpart, hmem⟩
  · exact absurd hslash (by decide)
  · exact h part hpart hmem

/-- A location without backslashes is resolved to a normal path. -/
theorem normalText_resolve {base location : String} (hbase : '\\' ∉ base.toList)
    (hlocation : '\\' ∉ location.toList) :
    normalText (resolve base location) = resolve base location := by
  have hplain : '\\' ∉ (joined base location).normalize.text.toList := by
    refine backslash_notMem_text fun part hpart hc => ?_
    rcases mem_of_mem_joined (mem_of_mem_normalize hpart) with hmem | hmem
    · exact hbase ((mem_of_mem_ofText hmem).2 _ hc).1
    · exact hlocation ((mem_of_mem_ofText hmem).2 _ hc).1
  rw [resolve_eq, withSlashes_eq_self hplain, normalText,
    ofText_text (wellFormed_joined base location).normalize, normalize_normalize]

theorem backslash_notMem_resolve (base location : String) :
    '\\' ∉ (resolve base location).toList :=
  backslash_notMem_withSlashes _

end UnixPath

/-! ## Documents at plain paths -/

namespace Place

/-- A location that is no URL is resolved as a path, if the document that refers to it is at a path. -/
theorem resolve_of_plain {base location : String} (hbase : isUrl base = false)
    (hlocation : isUrl location = false) : resolve base location = UnixPath.resolve base location := by
  have hnone : url? base = none := by
    rw [isUrl, Option.isSome_eq_false_iff, Option.isNone_iff_eq_none] at hbase
    exact hbase
  rw [resolve, hlocation, if_neg Bool.false_ne_true, hnone]
  rfl

/-- What is resolved to no URL is resolved as a path. -/
theorem resolve_of_isUrl_eq_false {base location : String} (hbase : isUrl base = false)
    (hplain : isUrl (resolve base location) = false) :
    resolve base location = UnixPath.resolve base location := by
  have hlocation : isUrl location = false := by
    by_contra hurl
    rw [Bool.not_eq_false] at hurl
    rw [resolve, hurl, if_pos rfl, hurl] at hplain
    cases hplain
  exact resolve_of_plain hbase hlocation

/-- Where a document at a plain path refers to a document at a plain path, the path is normal. -/
theorem normalText_resolve {base location : String} (hbase : isUrl base = false)
    (hplain : isUrl (resolve base location) = false) (hbackslash : '\\' ∉ base.toList)
    (hbackslash' : '\\' ∉ location.toList) :
    UnixPath.normalText (resolve base location) = resolve base location := by
  rw [resolve_of_isUrl_eq_false hbase hplain]
  exact UnixPath.normalText_resolve hbackslash hbackslash'

theorem backslash_notMem_resolve {base location : String} (hbase : isUrl base = false)
    (hplain : isUrl (resolve base location) = false) : '\\' ∉ (resolve base location).toList := by
  rw [resolve_of_isUrl_eq_false hbase hplain]
  exact UnixPath.backslash_notMem_resolve base location

end Place

end XsdTypes
