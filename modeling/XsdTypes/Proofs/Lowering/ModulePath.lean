import XsdTypes.Lowering.Path
import XsdTypes.Output.Staging
import XsdTypes.Proofs.Place.Normal
import XsdTypes.Proofs.Text.Fresh

/-!
# Where modules are written

The path of a module is made from the URI of a namespace, which may be anything, and files are written
at such paths below a directory. A path made of names stays below the directory and is the only such
path of its place. Pieces of the URI that are no names are left out, but the extension of schema
documents is taken away afterwards, so what is left of `.xsd`, `..xsd` and `...xsd` is no name either.
No other piece gives a segment that is no name.
-/

namespace XsdTypes

theorem Chars.stripEnd_eq_some {ending cs before : List Char} :
    stripEnd ending cs = some before ↔ cs = before ++ ending := by
  rw [stripEnd, Option.map_eq_some_iff]
  constructor
  · rintro ⟨after, hafter, rfl⟩
    rw [List.isPrefixOf?_eq_some_iff_append_eq] at hafter
    rw [← List.reverse_reverse cs, ← hafter, List.reverse_append, List.reverse_reverse]
  · rintro rfl
    refine ⟨before.reverse, ?_, List.reverse_reverse before⟩
    rw [List.isPrefixOf?_eq_some_iff_append_eq, List.reverse_append]

/-! ## Names with something behind them -/

/-- What is no name are the beginnings of a double dot. -/
theorem Text.isName_iff {segment : String} : IsName segment ↔ ¬ segment.toList <+: ['.', '.'] := by
  rw [← List.mem_inits, IsName]
  simp only [List.inits, List.map_cons, List.map_nil, List.mem_cons, List.not_mem_nil, or_false, not_or]
  rw [← String.toList_inj.ne, ← String.toList_inj.ne, ← String.toList_inj.ne]
  rfl

theorem Text.IsName.append {segment : String} (h : IsName segment) (ending : String) :
    IsName (segment ++ ending) := by
  rw [isName_iff] at h ⊢
  rw [String.toList_append]
  exact fun hdots => h ((List.prefix_append _ _).trans hdots)

namespace Lowering

variable {path : String}

/-! ## Characters -/

/-- The characters that a path may have between its slashes. -/
def isPathChar (c : Char) : Bool :=
  c.isAlphanum || c == '.' || c == '-' || c == '_'

/-- The character that stands for a character of a URI in a path. -/
def pathChar (c : Char) : Char :=
  if isPathChar c then c else '_'

theorem isPathChar_pathChar (c : Char) : isPathChar (pathChar c) = true := by
  unfold pathChar
  split
  · assumption
  · decide

theorem pathChar_eq_dot {c : Char} : pathChar c = '.' ↔ c = '.' := by
  unfold pathChar
  split
  · exact Iff.rfl
  · rename_i hother
    constructor
    · intro h
      exact absurd h (by decide)
    · rintro rfl
      exact absurd (by decide) hother

/-- All segments of the path are names of characters that do no harm. -/
def Safe (path : String) : Prop :=
  ∀ segment ∈ Text.segments path, Text.IsName segment ∧ ∀ c ∈ segment.toList, isPathChar c = true

theorem Safe.madeOfNames (h : Safe path) : Text.MadeOfNames path := fun segment hsegment =>
  (h segment hsegment).1

theorem Safe.append (h : Safe path) {ending : String}
    (hending : ∀ c ∈ ending.toList, isPathChar c = true) : Safe (path ++ ending) := by
  have hslash : '/' ∉ ending.toList := fun hc => absurd (hending _ hc) (by decide)
  obtain ⟨init, last, hpath, happend⟩ := Text.segments_append path hslash
  intro segment hsegment
  rw [happend] at hsegment
  rcases List.mem_append.mp hsegment with hinit | hlast
  · exact h segment (hpath ▸ List.mem_append_left _ hinit)
  · obtain ⟨hname, hchars⟩ := h last (hpath ▸ List.mem_append_right _ List.mem_cons_self)
    rw [List.mem_singleton.mp hlast]
    refine ⟨hname.append ending, fun c hc => ?_⟩
    rw [String.toList_append] at hc
    exact (List.mem_append.mp hc).elim (hchars c) (hending c)

/-! ## Segments -/

/-- Dots stand for dots only. -/
theorem map_pathChar_eq_dots {cs word : List Char} (hword : ∀ c ∈ word, c = '.') :
    cs.map pathChar = word ↔ cs = word := by
  induction cs generalizing word with
  | nil => rfl
  | cons c cs ih =>
    cases word with
    | nil => simp
    | cons dot word =>
      have hdot : dot = '.' := hword dot List.mem_cons_self
      rw [List.map_cons, List.cons.injEq, List.cons.injEq, hdot, pathChar_eq_dot,
        ih fun c' hc' => hword c' (List.mem_cons_of_mem _ hc')]

/-- A segment of dots comes from the dots themselves, or from the dots with the extension. -/
theorem pathSegment_eq_dots {piece word : List Char} (hword : ∀ c ∈ word, c = '.') :
    pathSegment piece = word ↔ piece = word ++ ['.', 'x', 's', 'd'] ∨ piece = word := by
  have heq : pathSegment piece =
      ((Chars.stripEnd ['.', 'x', 's', 'd'] piece).getD piece).map pathChar := rfl
  rw [heq, map_pathChar_eq_dots hword]
  cases hstrip : Chars.stripEnd ['.', 'x', 's', 'd'] piece with
  | none =>
    have hother : ∀ before, piece ≠ before ++ ['.', 'x', 's', 'd'] := by
      intro before hbefore
      rw [Chars.stripEnd_eq_some.mpr hbefore] at hstrip
      cases hstrip
    rw [Option.getD_none, or_iff_right (hother word)]
  | some before =>
    have hbefore := Chars.stripEnd_eq_some.mp hstrip
    have hother : piece ≠ word := by
      rintro rfl
      refine absurd (hword 'd' ?_) (by decide)
      rw [hbefore]
      simp
    rw [Option.getD_some, or_iff_left hother, hbefore, List.append_cancel_right_eq]

/-- What of a URI becomes a path, cut into its pieces. -/
def uriPieces (uri : String) : List (List Char) :=
  Chars.splitAt (fun c => c == '/' || c == ':' || c == '#')
    (match Chars.splitOnceAt [':', '/', '/'] uri.toList with
    | some (_, rest) => rest
    | none => uri.toList)

/-- The pieces that become segments. -/
def keptPieces (uri : String) : List (List Char) :=
  (uriPieces uri).filter fun piece => piece ≠ [] && piece ≠ ['.'] && piece ≠ ['.', '.']

theorem modulePath_eq (uri : String) : modulePath uri =
    if (keptPieces uri).isEmpty then "default"
    else String.ofList (Chars.join ['/'] ((keptPieces uri).map pathSegment)) := rfl

theorem mem_keptPieces {uri : String} {piece : List Char} :
    piece ∈ keptPieces uri ↔ piece ∈ uriPieces uri ∧ Text.IsName (String.ofList piece) := by
  rw [keptPieces, List.mem_filter, Text.isName_iff, String.toList_ofList, ← List.mem_inits]
  simp [List.inits, and_assoc]

theorem isPathChar_of_mem_pathSegment {piece : List Char} {c : Char} (hc : c ∈ pathSegment piece) :
    isPathChar c = true := by
  obtain ⟨c', _, rfl⟩ := List.mem_map.mp hc
  exact isPathChar_pathChar c'

theorem segments_modulePath (uri : String) : Text.segments (modulePath uri) =
    if keptPieces uri = [] then ["default"]
    else (keptPieces uri).map fun piece => String.ofList (pathSegment piece) := by
  rw [modulePath_eq]
  split
  · rename_i hnone
    rw [if_pos (List.isEmpty_iff.mp hnone)]
    decide
  · rename_i hsome
    have hne : keptPieces uri ≠ [] := fun hnone => hsome (List.isEmpty_iff.mpr hnone)
    rw [if_neg hne, Text.segments_eq, String.toList_ofList, Chars.splitAt_join, List.map_map]
    · rfl
    · exact beq_self_eq_true '/'
    · simpa using hne
    · intro segment hsegment c hc
      obtain ⟨piece, _, rfl⟩ := List.mem_map.mp hsegment
      refine beq_false_of_ne ?_
      rintro rfl
      exact absurd (isPathChar_of_mem_pathSegment hc) (by decide)

theorem isPathChar_of_mem_modulePath {uri segment : String}
    (hsegment : segment ∈ Text.segments (modulePath uri)) :
    ∀ c ∈ segment.toList, isPathChar c = true := by
  rw [segments_modulePath] at hsegment
  split at hsegment
  · rw [List.mem_singleton.mp hsegment]
    exact List.all_eq_true.mp (by decide)
  · obtain ⟨piece, _, rfl⟩ := List.mem_map.mp hsegment
    rw [String.toList_ofList]
    exact fun c hc => isPathChar_of_mem_pathSegment hc

/-- A segment that is no name is what is left of a piece with the extension. -/
theorem mem_segments_modulePath_iff {uri word : String} (hword : ¬ Text.IsName word) :
    word ∈ Text.segments (modulePath uri) ↔ word.toList ++ ['.', 'x', 's', 'd'] ∈ uriPieces uri := by
  have hdots : ∀ c ∈ word.toList, c = '.' := by
    rw [Text.isName_iff, not_not] at hword
    intro c hc
    simpa using hword.subset hc
  rw [segments_modulePath]
  constructor
  · intro hmem
    split at hmem
    · refine absurd ?_ hword
      rw [List.mem_singleton.mp hmem]
      decide
    · obtain ⟨piece, hpiece, rfl⟩ := List.mem_map.mp hmem
      obtain ⟨hpiece, hname⟩ := mem_keptPieces.mp hpiece
      rw [String.toList_ofList] at hdots ⊢
      rcases (pathSegment_eq_dots hdots).mp rfl with hextended | hsame
      · exact hextended ▸ hpiece
      · rw [← hsame] at hword
        exact absurd hname hword
  · intro hpiece
    have hname : Text.IsName (String.ofList (word.toList ++ ['.', 'x', 's', 'd'])) := by
      rw [Text.isName_iff, String.toList_ofList]
      intro hshort
      have hd : 'd' ∈ ['.', '.'] := hshort.subset (by simp)
      exact absurd hd (by decide)
    have hkept := mem_keptPieces.mpr ⟨hpiece, hname⟩
    rw [if_neg (List.ne_nil_of_mem hkept)]
    refine List.mem_map.mpr ⟨_, hkept, ?_⟩
    rw [(pathSegment_eq_dots hdots).mpr (Or.inl rfl), String.ofList_toList]

/-- The path of a namespace is made of names unless a piece of the URI is the extension itself, or the
extension after a dot or two. -/
theorem safe_modulePath_iff {uri : String} : Safe (modulePath uri) ↔
    ∀ piece ∈ uriPieces uri, String.ofList piece ∉ [".xsd", "..xsd", "...xsd"] := by
  have hextended : ∀ word : String, ¬ Text.IsName word →
      String.ofList (word.toList ++ ['.', 'x', 's', 'd']) ∈ [".xsd", "..xsd", "...xsd"] := by
    intro word hword
    have hcases : word = "" ∨ word = "." ∨ word = ".." := by
      rw [Text.IsName] at hword
      tauto
    rcases hcases with rfl | rfl | rfl <;> decide
  constructor
  · intro hsafe piece hpiece hbad
    have hleft : ∃ word : String, ¬ Text.IsName word ∧ piece = word.toList ++ ['.', 'x', 's', 'd'] := by
      simp only [List.mem_cons, List.not_mem_nil, or_false] at hbad
      have hpiece := String.toList_ofList (l := piece)
      rcases hbad with hbad | hbad | hbad
      · exact ⟨"", by decide, by rw [← hpiece, hbad]; decide⟩
      · exact ⟨".", by decide, by rw [← hpiece, hbad]; decide⟩
      · exact ⟨"..", by decide, by rw [← hpiece, hbad]; decide⟩
    obtain ⟨word, hword, rfl⟩ := hleft
    exact hword (hsafe word ((mem_segments_modulePath_iff hword).mpr hpiece)).1
  · intro hall segment hsegment
    refine ⟨?_, isPathChar_of_mem_modulePath hsegment⟩
    by_contra hword
    exact hall _ ((mem_segments_modulePath_iff hword).mp hsegment) (hextended segment hword)

/-- A path that is taken gets a low line and a number. -/
theorem Safe.fresh (h : Safe path) (taken : List String) : Safe (Text.fresh "_" path taken) := by
  rcases Text.fresh_isFirstFree "_" path taken with ⟨_, heq⟩ | ⟨_, n, _, heq, _⟩
  · rw [heq]
    exact h
  · rw [heq, Text.numbered, String.append_assoc]
    refine h.append fun c hc => ?_
    rw [String.toList_append, List.mem_append] at hc
    rcases hc with hmark | hdigit
    · rw [List.mem_singleton.mp hmark]
      decide
    · rw [Nat.toString_eq_ofList_toDigits, String.toList_ofList] at hdigit
      have hdigit := Nat.isDigit_of_mem_toDigits (by omega) (by omega) hdigit
      simp [isPathChar, Char.isAlphanum, hdigit]

end Lowering

/-! ## Places -/

namespace Staging

/-- The directory as it is written before what is in it. -/
def asDirectory (root : String) : String :=
  if root = "" ∨ root.toList.getLast? = some '/' then root else root ++ "/"

theorem appendSegment_eq (root segment : String) :
    appendSegment root segment = asDirectory root ++ segment := by
  unfold appendSegment asDirectory
  split <;> rfl

theorem asDirectory_append (root : String) {name : String} (hname : name ≠ "")
    (hslash : '/' ∉ name.toList) : asDirectory (root ++ name) = root ++ name ++ "/" := by
  have hchars : name.toList ≠ [] := fun hnone => hname (String.toList_eq_nil_iff.mp hnone)
  refine if_neg ?_
  rw [← String.toList_eq_nil_iff, String.toList_append, List.getLast?_append_of_ne_nil _ hchars]
  rintro (hempty | hlast)
  · exact hchars (List.append_eq_nil_iff.mp hempty).2
  · exact hslash (List.mem_of_getLast? hlast)

theorem foldl_appendSegment (root : String) {names : List String} (hne : names ≠ [])
    (hnames : ∀ name ∈ names, name ≠ "" ∧ '/' ∉ name.toList) :
    names.foldl appendSegment root = asDirectory root ++ Text.join "/" names := by
  induction names generalizing root with
  | nil => exact absurd rfl hne
  | cons name names ih =>
    rw [List.foldl_cons, appendSegment_eq]
    cases names with
    | nil => rw [List.foldl_nil, Text.join_singleton]
    | cons next names =>
      obtain ⟨hname, hslash⟩ := hnames name List.mem_cons_self
      rw [ih _ (List.cons_ne_nil _ _) fun name' hname' => hnames name' (List.mem_cons_of_mem _ hname'),
        asDirectory_append _ hname hslash, Text.join_cons name (List.cons_ne_nil _ _)]
      simp only [String.append_assoc]

/-- A path made of names has a place below the directory. -/
theorem placeOf_eq (root : String) {path : String} (h : Text.MadeOfNames path) :
    placeOf root path = .ok (asDirectory root ++ path) := by
  have hkept : (Text.splitAt (· == '/') path).filter (· ≠ "") = Text.segments path := by
    rw [← Text.segments, List.filter_eq_self]
    intro segment hsegment
    simpa using (h segment hsegment).1
  have hdots : ¬ ((Text.segments path).contains "." = true ∨
      (Text.segments path).contains ".." = true) := by
    rw [List.contains_iff_mem, List.contains_iff_mem]
    rintro (hdot | hup)
    · exact (h _ hdot).2.1 rfl
    · exact (h _ hup).2.2 rfl
  rw [placeOf]
  simp only [hkept]
  rw [if_neg hdots, foldl_appendSegment root (Text.segments_ne_nil path) fun name hname =>
    ⟨(h name hname).1, Text.slash_notMem_of_mem_segments hname⟩, Text.join_segments]

/-- Before the segments of the path are those of the directory, but for an empty one at their end. -/
theorem segments_asDirectory_append (root path : String) : ∃ init,
    Text.segments (asDirectory root ++ path) = init ++ Text.segments path ∧
      (Text.segments root = init ∨ Text.segments root = init ++ [""]) := by
  by_cases hroot : root = ""
  · refine ⟨[], ?_, Or.inr ?_⟩
    · rw [hroot, asDirectory, if_pos (Or.inl rfl), String.empty_append, List.nil_append]
    · rw [hroot]
      decide
  by_cases hslash : root.toList.getLast? = some '/'
  · obtain ⟨cs, hcs⟩ := List.getLast?_eq_some_iff.mp hslash
    have hends : root = String.ofList cs ++ "/" := by
      apply String.toList_injective
      rw [String.toList_append, String.toList_ofList, hcs]
      rfl
    refine ⟨Text.segments (String.ofList cs), ?_, Or.inr ?_⟩
    · rw [asDirectory, if_pos (Or.inr hslash), hends, Text.segments_append_slash]
    · have hnothing := Text.segments_append_slash (String.ofList cs) ""
      rw [String.append_empty, ← hends] at hnothing
      exact hnothing
  · refine ⟨Text.segments root, ?_, Or.inl rfl⟩
    rw [asDirectory, if_neg (not_or.mpr ⟨hroot, hslash⟩), Text.segments_append_slash]

theorem startsWith_asDirectory_append (root : String) {path : String} (h : Text.MadeOfNames path) :
    Text.startsWith "/" (asDirectory root ++ path) = Text.startsWith "/" root := by
  have hpath : Text.startsWith "/" path = false :=
    congrArg UnixPath.isAbsolute (UnixPath.ofText_of_madeOfNames h)
  by_cases hroot : root = ""
  · rw [hroot, asDirectory, if_pos (Or.inl rfl), String.empty_append, hpath]
    decide
  · have hmore : ∃ more, (asDirectory root ++ path).toList = root.toList ++ more := by
      unfold asDirectory
      split
      · exact ⟨path.toList, String.toList_append⟩
      · exact ⟨"/".toList ++ path.toList, by simp only [String.toList_append, List.append_assoc]⟩
    obtain ⟨more, hmore⟩ := hmore
    rw [Text.startsWith, Text.startsWith, hmore]
    cases hchars : root.toList with
    | nil => exact absurd (String.toList_eq_nil_iff.mp hchars) hroot
    | cons c cs => rfl

/-- The parts of a place are those of the directory and then those of the path. -/
theorem ofText_place (root : String) {path : String} (h : Text.MadeOfNames path) :
    UnixPath.ofText (asDirectory root ++ path) =
      ⟨(UnixPath.ofText root).isAbsolute, (UnixPath.ofText root).parts ++ Text.segments path⟩ := by
  have hpath : (Text.segments path).filter (fun part => part ≠ "" && part ≠ ".") =
      Text.segments path := congrArg UnixPath.parts (UnixPath.ofText_of_madeOfNames h)
  obtain ⟨init, hplace, hroot⟩ := segments_asDirectory_append root path
  have hparts : (UnixPath.ofText (asDirectory root ++ path)).parts =
      (UnixPath.ofText root).parts ++ Text.segments path := by
    change (Text.segments _).filter _ = (Text.segments _).filter _ ++ _
    rw [hplace, List.filter_append, hpath]
    rcases hroot with hroot | hroot
    · rw [hroot]
    · rw [hroot, List.filter_append, List.filter_cons_of_neg (by decide), List.filter_nil,
        List.append_nil]
  rw [← hparts, UnixPath.ofText, startsWith_asDirectory_append root h]
  rfl

/-- No other path made of names has the same place. -/
theorem eq_of_ofText_place (root : String) {path other : String} (h : Text.MadeOfNames path)
    (hother : Text.MadeOfNames other)
    (hsame : UnixPath.ofText (asDirectory root ++ other) = UnixPath.ofText (asDirectory root ++ path)) :
    other = path := by
  rw [ofText_place root h, ofText_place root hother, UnixPath.mk.injEq, List.append_cancel_left_eq]
    at hsame
  exact Text.segments_injective hsame.2

end Staging

namespace Lowering

/-- All characters between the slashes of the path of a namespace are harmless, and all segments are
names unless a piece of the URI is `.xsd`, `..xsd` or `...xsd`. Then a file at the path, whether it has
got a number or not, has a place below the directory that it is written to, and no other path made of
names has this place. -/
theorem modulePath_stays_below (uri : String) :
    (∀ segment ∈ Text.segments (modulePath uri), ∀ c ∈ segment.toList, isPathChar c = true) ∧
    (Safe (modulePath uri) ↔
      ∀ piece ∈ uriPieces uri, String.ofList piece ∉ [".xsd", "..xsd", "...xsd"]) ∧
    (Safe (modulePath uri) → modulePath uri ≠ "" ∧ ∀ (root : String) (taken : List String),
      let file := Text.fresh "_" (modulePath uri) taken ++ Script.extension
      Safe file ∧ ∃ place, Staging.placeOf root file = .ok place ∧
        UnixPath.ofText place = ⟨(UnixPath.ofText root).isAbsolute,
          (UnixPath.ofText root).parts ++ Text.segments file⟩ ∧
        ∀ other place', Text.MadeOfNames other → Staging.placeOf root other = .ok place' →
          UnixPath.ofText place' = UnixPath.ofText place → other = file) := by
  refine ⟨fun segment hsegment => isPathChar_of_mem_modulePath hsegment, safe_modulePath_iff,
    fun hsafe => ⟨fun hempty => ?_, fun root taken => ?_⟩⟩
  · rw [hempty] at hsafe
    exact (hsafe "" (by decide)).1.1 rfl
  · intro file
    have hfile : Safe file := (hsafe.fresh taken).append (List.all_eq_true.mp (by decide))
    refine ⟨hfile, _, Staging.placeOf_eq root hfile.madeOfNames,
      Staging.ofText_place root hfile.madeOfNames, fun other place' hother hplace' hsame => ?_⟩
    rw [Staging.placeOf_eq root hother] at hplace'
    cases hplace'
    exact Staging.eq_of_ofText_place root hfile.madeOfNames hother hsame

theorem modulePath_stays_below_example : modulePath "http://example.com/a/../b.xsd" = "example.com/a/b" ∧
    Safe (modulePath "http://example.com/a/../b.xsd") ∧
    ∃ place, Staging.placeOf "out" (Text.fresh "_" (modulePath "http://example.com/a/../b.xsd")
        ["example.com/a/b"] ++ Script.extension) = .ok place ∧
      UnixPath.ofText place = ⟨false, ["out", "example.com", "a", "b_2.d.ts"]⟩ := by
  have hsafe : Safe (modulePath "http://example.com/a/../b.xsd") :=
    (modulePath_stays_below "http://example.com/a/../b.xsd").2.1.mpr (by decide +kernel)
  obtain ⟨_, place, hplace, hparts, _⟩ :=
    ((modulePath_stays_below "http://example.com/a/../b.xsd").2.2 hsafe).2 "out" ["example.com/a/b"]
  refine ⟨by decide +kernel, hsafe, place, hplace, hparts.trans ?_⟩
  decide +kernel

/-- A double dot may be left in the path of a namespace. -/
theorem not_every_modulePath_safe : ¬ ∀ uri : String, Safe (modulePath uri) := by
  intro hall
  have hup : ".." ∈ Text.segments (modulePath "http://example.com/...xsd/types") := by decide +kernel
  exact (hall "http://example.com/...xsd/types" ".." hup).1.2.2 rfl

end Lowering

end XsdTypes
