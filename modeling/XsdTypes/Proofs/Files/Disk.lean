import XsdTypes.Files.Disk
import XsdTypes.Proofs.Sequencing
import Mathlib.Data.List.SplitBy

/-!
# What stands on a disk

What each operation on a disk does to the entries. A path leads through directories only, so it
leads to the same place as long as the directories stay.
-/

namespace XsdTypes.Disk

open Sequencing

variable {d d' : Disk} {path : List FileName}

/-- The bytes of the file at a path, if there is one. -/
def file? (d : Disk) (path : List FileName) : Option (List UInt8) :=
  match d.entry? path with
  | some (.file content) => some content
  | _ => none

theorem entry?_nil (d : Disk) : d.entry? [] = some .directory := rfl

theorem entry?_of_ne_nil (hpath : path ≠ []) (d : Disk) :
    d.entry? path = d.entries.lookup path := by
  unfold entry?
  rw [if_neg (by simpa using hpath)]

theorem lookup_map_set (entries : List (List FileName × DiskEntry)) (path q : List FileName)
    (entry : DiskEntry) :
    (entries.map fun (p, e) => (p, if p = path then entry else e)).lookup q =
      if q = path then (entries.lookup q).map fun _ => entry else entries.lookup q := by
  induction entries with
  | nil => simp
  | cons first entries ih =>
    obtain ⟨p, e⟩ := first
    rw [List.map_cons, List.lookup_cons, List.lookup_cons]
    by_cases hq : q = p
    · subst hq
      by_cases hp : q = path <;> simp [hp]
    · have hne : (q == p) = false := beq_false_of_ne hq
      rw [hne]
      exact ih

theorem entry?_put (hpath : path ≠ []) (d : Disk) (entry : DiskEntry) (q : List FileName) :
    Disk.entry? (d.put path entry) q = if q = path then some entry else d.entry? q := by
  by_cases hq : q = []
  · subst hq
    rw [entry?_nil, entry?_nil, if_neg hpath.symm]
  rw [entry?_of_ne_nil hq, entry?_of_ne_nil hq, put]
  split
  · rename_i hsome
    rw [lookup_map_set]
    split
    · rename_i hsame
      subst hsame
      obtain ⟨old, hold⟩ := Option.isSome_iff_exists.mp hsome
      rw [hold]
      rfl
    · rfl
  · rename_i hnone
    rw [Option.not_isSome_iff_eq_none] at hnone
    rw [List.lookup_append]
    by_cases hsame : q = path
    · subst hsame
      simp [hnone]
    · have hne : (q == path) = false := beq_false_of_ne hsame
      simp [List.lookup_cons, hne, hsame]

theorem entry?_erase (hpath : path ≠ []) (d : Disk) (q : List FileName) :
    Disk.entry? (d.erase path) q = if q = path then none else d.entry? q := by
  by_cases hq : q = []
  · subst hq
    rw [entry?_nil, entry?_nil, if_neg hpath.symm]
  rw [entry?_of_ne_nil hq, entry?_of_ne_nil hq, erase]
  induction d.entries with
  | nil => simp
  | cons first entries ih =>
    obtain ⟨p, e⟩ := first
    by_cases hp : p = path
    · subst hp
      rw [List.filter_cons_of_neg (by simp), ih, List.lookup_cons]
      split
      · rfl
      · rename_i hne
        rw [beq_false_of_ne hne]
    · rw [List.filter_cons_of_pos (by simpa using hp), List.lookup_cons, List.lookup_cons, ih]
      by_cases hqp : q = p
      · subst hqp
        simp [hp]
      · rw [beq_false_of_ne hqp]

theorem put_cwd (d : Disk) (path : List FileName) (entry : DiskEntry) :
    (d.put path entry).cwd = d.cwd := by
  unfold put
  split <;> rfl

theorem ne_nil_of_not_directory (h : d.entry? path ≠ some .directory) : path ≠ [] := by
  rintro rfl
  exact h rfl

/-! ## Paths -/

/-- All directories stay where they are. -/
structure KeepsDirectories (d d' : Disk) : Prop where
  cwd : d'.cwd = d.cwd
  directory : ∀ path, d.entry? path = some .directory → d'.entry? path = some .directory

theorem KeepsDirectories.refl (d : Disk) : d.KeepsDirectories d := ⟨rfl, fun _ h => h⟩

theorem KeepsDirectories.trans {d'' : Disk} (h : d.KeepsDirectories d')
    (h' : d'.KeepsDirectories d'') : d.KeepsDirectories d'' :=
  ⟨h'.cwd.trans h.cwd, fun path hpath => h'.directory path (h.directory path hpath)⟩

/-- Where a step from a place leads. -/
def step (place : List FileName) (name : FileName) : List FileName :=
  if name = bytesOf "." then place
  else if name = bytesOf ".." then place.dropLast
  else place ++ [name]

/-- A step can be taken from a directory, if the name is not too long. -/
theorem follow_cons_eq_ok {place target : List FileName} {name : FileName} {names : List FileName} :
    d.follow place (name :: names) = .ok target ↔
      d.entry? place = some .directory ∧ d.follow (step place name) names = .ok target ∧
        (name = bytesOf "." ∨ name = bytesOf ".." ∨ name.length ≤ nameLimit) := by
  rw [follow, step]
  cases hentry : d.entry? place with
  | none => simp
  | some entry =>
    cases entry with
    | file content => simp
    | directory =>
      by_cases hdot : name = bytesOf "."
      · simp [hdot]
      by_cases hup : name = bytesOf ".."
      · have hne : bytesOf ".." ≠ bytesOf "." := hup ▸ hdot
        simp [hup, hne]
      by_cases hlong : nameLimit < name.length
      · simp [hdot, hup, hlong]
      · simp [hdot, hup, hlong, Nat.le_of_not_lt hlong]

theorem follow_append_eq_ok {place target : List FileName} {names names' : List FileName} :
    d.follow place (names ++ names') = .ok target ↔
      ∃ middle, d.follow place names = .ok middle ∧ d.follow middle names' = .ok target := by
  induction names generalizing place with
  | nil => simp [follow]
  | cons name names ih =>
    rw [List.cons_append, follow_cons_eq_ok, ih]
    constructor
    · rintro ⟨hentry, ⟨middle, hmiddle, htarget⟩, hname⟩
      exact ⟨middle, follow_cons_eq_ok.mpr ⟨hentry, hmiddle, hname⟩, htarget⟩
    · rintro ⟨middle, hmiddle, htarget⟩
      obtain ⟨hentry, hmiddle, hname⟩ := follow_cons_eq_ok.mp hmiddle
      exact ⟨hentry, ⟨middle, hmiddle, htarget⟩, hname⟩

/-- A path leads to the same place as long as the directories stay. -/
theorem KeepsDirectories.follow (h : d.KeepsDirectories d') {place target : List FileName}
    {names : List FileName} (hok : d.follow place names = .ok target) :
    d'.follow place names = .ok target := by
  induction names generalizing place with
  | nil => exact hok
  | cons name names ih =>
    obtain ⟨hentry, hrest, hname⟩ := follow_cons_eq_ok.mp hok
    exact follow_cons_eq_ok.mpr ⟨h.directory place hentry, ih hrest, hname⟩

/-- Whether a path can be followed at all. -/
def IsPath (path : List UInt8) : Prop :=
  path ≠ [] ∧ 0 ∉ path ∧ path.length ≤ pathLimit

/-- Where a path starts. -/
def origin (d : Disk) (path : List UInt8) : List FileName :=
  if path.head? = some slash then [] else d.cwd

theorem followAlong_eq_ok {path : List UInt8} {names target : List FileName} :
    d.followAlong path names = .ok target ↔
      IsPath path ∧ d.follow (d.origin path) names = .ok target := by
  unfold followAlong IsPath origin
  by_cases hempty : path = []
  · simp [hempty]
  by_cases hnul : 0 ∈ path
  · simp [hempty, hnul]
  by_cases hlong : pathLimit < path.length
  · simp [hempty, hnul, hlong]
  · simp [hempty, hnul, hlong, Nat.le_of_not_lt hlong]

theorem KeepsDirectories.followAlong (h : d.KeepsDirectories d') {path : List UInt8}
    {names target : List FileName} (hok : d.followAlong path names = .ok target) :
    d'.followAlong path names = .ok target := by
  obtain ⟨hpath, hfollow⟩ := followAlong_eq_ok.mp hok
  refine followAlong_eq_ok.mpr ⟨hpath, ?_⟩
  rw [origin, h.cwd]
  exact h.follow hfollow

theorem KeepsDirectories.locate (h : d.KeepsDirectories d') {path : List UInt8}
    {place : List FileName} (hok : d.locate path = .ok place) : d'.locate path = .ok place :=
  h.followAlong hok

theorem isDirectory_of_locate {path : String} {place : List FileName}
    (hplace : d.locate (bytesOf path) = .ok place) :
    d.isDirectory path = true ↔ d.entry? place = some .directory := by
  rw [isDirectory, hplace]
  exact decide_eq_true_iff

theorem KeepsDirectories.isDirectory (h : d.KeepsDirectories d') {path : String}
    (hok : d.isDirectory path = true) : d'.isDirectory path = true := by
  unfold Disk.isDirectory at hok ⊢
  split at hok
  · rename_i place hplace
    rw [h.locate hplace]
    exact decide_eq_true (h.directory place (of_decide_eq_true hok))
  · cases hok

/-! ## The last name -/

/-- A path that is not empty and does not end in a slash has a last name. -/
theorem exists_last {path : List UInt8} (hne : path ≠ []) (hends : endsInSlash path = false) :
    ∃ before name, path = before ++ name ∧ name ≠ [] ∧ slash ∉ name ∧
      ∀ b ∈ before.getLast?, b = slash := by
  induction path using List.reverseRecOn with
  | nil => exact absurd rfl hne
  | append_singleton path b ih =>
    have hb : b ≠ slash := by simpa [endsInSlash] using hends
    by_cases hpath : path = [] ∨ endsInSlash path = true
    · refine ⟨path, [b], rfl, List.cons_ne_nil _ _, ?_, fun b' hb' => ?_⟩
      · rw [List.mem_singleton]
        exact hb.symm
      · rcases hpath with rfl | hslash
        · cases hb'
        · rw [endsInSlash, hb'] at hslash
          simpa using hslash
    · rw [not_or, Bool.not_eq_true] at hpath
      obtain ⟨before, name, rfl, _, hslash, hbefore⟩ := ih hpath.1 hpath.2
      refine ⟨before, name ++ [b], List.append_assoc _ _ _, by simp, ?_, hbefore⟩
      rw [List.mem_append, List.mem_singleton, not_or]
      exact ⟨hslash, hb.symm⟩

theorem names_append {before name : List UInt8} (hne : name ≠ []) (hslash : slash ∉ name)
    (hbefore : ∀ b ∈ before.getLast?, b = slash) :
    names (before ++ name) = names before ++ [name] := by
  have hchain : name.splitBy (fun a b => a != slash && b != slash) = [name] := by
    apply List.splitBy_of_isChain hne
    rw [List.isChain_iff_forall_rel_of_append_cons_cons]
    intro a b before after hname
    have ha : a ≠ slash := fun h => hslash (by rw [hname, h]; simp)
    have hb : b ≠ slash := fun h => hslash (by rw [hname, h]; simp)
    simp [ha, hb]
  have hlast : name ≠ [slash] := by
    rintro rfl
    exact hslash (List.mem_singleton.mpr rfl)
  have hsplit := List.splitBy_append (r := fun a b => a != slash && b != slash) (l := before)
    (m := name) fun x hx y _ => by simp [hbefore x hx]
  rw [names, hsplit, hchain, List.filter_append]
  simp [names, hlast]

theorem endsInSlash_append {before name : List UInt8} (hne : name ≠ []) (hslash : slash ∉ name) :
    endsInSlash (before ++ name) = false := by
  rw [endsInSlash, List.getLast?_append_of_ne_nil _ hne, List.getLast?_eq_some_getLast hne]
  exact beq_false_of_ne fun h => hslash (Option.some.inj h ▸ List.getLast_mem hne)

/-- A name that stands for itself. -/
def IsProper (name : FileName) : Prop :=
  name ≠ bytesOf "." ∧ name ≠ bytesOf ".."

/-- The path ends in a name that stands for itself. -/
def IsNamed (path : List UInt8) : Prop :=
  endsInSlash path = false ∧ ∃ name ∈ (names path).getLast?, IsProper name

instance (path : List UInt8) : Decidable (IsNamed path) :=
  inferInstanceAs (Decidable (_ ∧ ∃ name ∈ (names path).getLast?, name ≠ _ ∧ name ≠ _))

theorem follow_singleton_eq_ok {place target : List FileName} {name : FileName}
    (hname : IsProper name) : d.follow place [name] = .ok target ↔
      d.entry? place = some .directory ∧ target = place ++ [name] ∧ name.length ≤ nameLimit := by
  rw [follow_cons_eq_ok, step, if_neg hname.1, if_neg hname.2, follow]
  simp [hname.1, hname.2, eq_comm]

theorem follow_dot_eq_ok {place target : List FileName} :
    d.follow place [bytesOf "."] = .ok target ↔
      d.entry? place = some .directory ∧ target = place := by
  rw [follow_cons_eq_ok, step, if_pos rfl, follow]
  simp [eq_comm]

/-- Where a path is split, if it ends in a name that stands for itself. -/
theorem split_append_eq_ok {before name : List UInt8} {dir : List FileName} (hne : name ≠ [])
    (hslash : slash ∉ name) (hbefore : ∀ b ∈ before.getLast?, b = slash) (hname : IsProper name)
    (hpath : IsPath (before ++ name))
    (hdir : d.follow (d.origin (before ++ name)) (names before) = .ok dir)
    (hentry : d.entry? dir = some .directory) :
    d.split (before ++ name) = .ok (dir, some name) := by
  have hfollow : d.followAlong (before ++ name) (names before ++ [bytesOf "."]) = .ok dir :=
    followAlong_eq_ok.mpr
      ⟨hpath, follow_append_eq_ok.mpr ⟨dir, hdir, follow_dot_eq_ok.mpr ⟨hentry, rfl⟩⟩⟩
  unfold split
  simp only [names_append hne hslash hbefore, List.dropLast_concat, hfollow, List.getLast?_concat]
  change Except.ok (dir, (some name).filter _) = _
  simp [hname.1, hname.2]

/-- A path is located where its last name is in the directory that holds it. -/
theorem locate_of_split {path : List UInt8} {dir place : List FileName} {name : FileName}
    (hsplit : d.split path = .ok (dir, some name)) (hends : endsInSlash path = false)
    (hfollow : d.follow dir [name] = .ok place) : d.locate path = .ok place := by
  unfold split at hsplit
  obtain ⟨directory, hdirectory, hresult⟩ := bind_eq_ok.mp hsplit
  cases hlast : (names path).getLast? with
  | none =>
    rw [hlast] at hresult
    cases hresult
  | some last =>
    rw [hlast] at hresult
    obtain ⟨rfl, hfilter⟩ := Prod.mk.inj (Except.ok.inj hresult)
    cases (Option.filter_eq_some_iff.mp hfilter).1
    obtain ⟨init, hinit⟩ := List.getLast?_eq_some_iff.mp hlast
    rw [hinit, List.dropLast_concat] at hdirectory
    obtain ⟨hpath, hfollow'⟩ := followAlong_eq_ok.mp hdirectory
    obtain ⟨middle, hmiddle, hdot⟩ := follow_append_eq_ok.mp hfollow'
    obtain ⟨_, rfl⟩ := follow_dot_eq_ok.mp hdot
    rw [locate, hends, if_neg Bool.false_ne_true, hinit]
    exact followAlong_eq_ok.mpr ⟨hpath, follow_append_eq_ok.mpr ⟨_, hmiddle, hfollow⟩⟩

/-- If a longer name can be located, so can the name itself, in the same directory. -/
theorem exists_beside {path more : List UInt8} {place : List FileName} (hnamed : IsNamed path)
    (hslash : slash ∉ more) (hmore : 2 ≤ more.length)
    (hplace : d.locate (path ++ more) = .ok place) :
    ∃ dir name, place = dir ++ [name ++ more] ∧ d.locate path = .ok (dir ++ [name]) ∧
      d.split path = .ok (dir, some name) ∧
      d.split (path ++ more) = .ok (dir, some (name ++ more)) ∧
      d.follow dir [name] = .ok (dir ++ [name]) ∧ d.follow dir [name ++ more] = .ok place ∧
      endsInSlash (path ++ more) = false := by
  obtain ⟨hends, last, hlast, hproper⟩ := hnamed
  have hne : path ≠ [] := by
    rintro rfl
    cases hlast
  obtain ⟨before, name, rfl, hname, hslash', hbefore⟩ := exists_last hne hends
  rw [names_append hname hslash' hbefore, List.getLast?_concat, Option.mem_some_iff] at hlast
  subst hlast
  rw [List.append_assoc] at hplace ⊢
  have hname' : name ++ more ≠ [] := by simp [hname]
  have hslash'' : slash ∉ name ++ more := by simp [hslash, hslash']
  -- the longer name has more bytes than the dots have
  have hlong : 3 ≤ (name ++ more).length := by
    have hpos := List.length_pos_iff.mpr hname
    rw [List.length_append]
    omega
  have hproper' : IsProper (name ++ more) := by
    constructor <;> intro heq <;> rw [heq] at hlong <;> exact absurd hlong (by decide)
  have hends' : endsInSlash (before ++ (name ++ more)) = false := endsInSlash_append hname' hslash''
  rw [locate, hends', if_neg Bool.false_ne_true, names_append hname' hslash'' hbefore] at hplace
  obtain ⟨⟨_, hnul, hlimit⟩, hfollow⟩ := followAlong_eq_ok.mp hplace
  obtain ⟨dir, hdir, hstep⟩ := follow_append_eq_ok.mp hfollow
  obtain ⟨hentry, rfl, hlength⟩ := (follow_singleton_eq_ok hproper').mp hstep
  have hpath : IsPath (before ++ name) := by
    refine ⟨hne, fun h => hnul ?_, ?_⟩
    · rw [← List.append_assoc]
      exact List.mem_append_left _ h
    · simp only [List.length_append] at hlimit ⊢
      omega
  have horigin : d.origin (before ++ (name ++ more)) = d.origin (before ++ name) := by
    unfold origin
    rw [← List.append_assoc, List.head?_append_of_ne_nil _ hne]
  have hsingle : d.follow dir [name] = .ok (dir ++ [name]) := by
    refine (follow_singleton_eq_ok hproper).mpr ⟨hentry, rfl, ?_⟩
    rw [List.length_append] at hlength
    omega
  have hsplit := split_append_eq_ok hname hslash' hbefore hproper hpath (horigin ▸ hdir) hentry
  refine ⟨dir, name, rfl, locate_of_split hsplit hends hsingle, hsplit, ?_, hsingle, hstep, hends'⟩
  exact split_append_eq_ok hname' hslash'' hbefore hproper'
    ⟨by simp [hname], hnul, hlimit⟩ hdir hentry

/-! ## Operations -/

theorem change_of_ok {f : Disk → Except FileFault Disk} (hok : f d = .ok d') :
    change f d = (.ok (), d') := by
  rw [change, get_bind_apply, hok]
  rfl

theorem change_of_error {f : Disk → Except FileFault Disk} {fault : FileFault}
    (herror : f d = .error fault) : change f d = (.error fault, d) := by
  rw [change, get_bind_apply, herror]
  rfl

theorem writeText_eq_ok {path text : String} (hok : d.writeText path text = .ok d') :
    ∃ place, d.locate (bytesOf path) = .ok place ∧ d.entry? place ≠ some .directory ∧
      d' = d.put place (.file (bytesOf text)) := by
  unfold writeText at hok
  obtain ⟨place, hplace, hrest⟩ := bind_eq_ok.mp hok
  refine ⟨place, hplace, ?_⟩
  by_cases hentry : d.entry? place = some .directory
  · rw [if_pos hentry] at hrest
    cases hrest
  · rw [if_neg hentry] at hrest
    cases hrest
    exact ⟨hentry, rfl⟩

theorem makeDirectory_eq_ok {path : String} (hok : d.makeDirectory path = .ok d') :
    ∃ place, d.entry? place = none ∧ d' = d.put place .directory := by
  unfold makeDirectory at hok
  obtain ⟨place, hplace, hrest⟩ := bind_eq_ok.mp hok
  refine ⟨place, ?_⟩
  by_cases hentry : (d.entry? place).isSome
  · rw [if_pos hentry] at hrest
    cases hrest
  · rw [if_neg hentry] at hrest
    cases hrest
    exact ⟨Option.not_isSome_iff_eq_none.mp hentry, rfl⟩

/-- What is removed is a file, and what is not a directory can be removed or is not there. -/
theorem remove_cases {path : String} {place : List FileName}
    (hplace : d.locate (bytesOf path) = .ok place) (hentry : d.entry? place ≠ some .directory) :
    d.remove path = .ok (d.erase place) ∨
      d.entry? place = none ∧ d.remove path = .error .missing := by
  unfold remove
  rw [hplace]
  simp only [bind, Except.bind]
  cases hat : d.entry? place with
  | none => exact Or.inr ⟨rfl, rfl⟩
  | some entry =>
    cases entry with
    | file content => exact Or.inl rfl
    | directory => exact absurd hat hentry

theorem rename_eq_ok {source target : String} (hok : d.rename source target = .ok d') :
    ∃ origin place entry, d.locate (bytesOf source) = .ok origin ∧
      d.locate (bytesOf target) = .ok place ∧ d.entry? origin = some entry ∧
      d.entry? place ≠ some .directory ∧ d' = (d.erase origin).put place entry := by
  unfold rename at hok
  obtain ⟨⟨dir, oldName?⟩, hsource, hok⟩ := bind_eq_ok.mp hok
  obtain ⟨⟨dir', newName?⟩, htarget, hok⟩ := bind_eq_ok.mp hok
  cases oldName? with
  | none => cases hok
  | some oldName =>
    cases newName? with
    | none => cases hok
    | some newName =>
      obtain ⟨origin, horigin, hok⟩ := bind_eq_ok.mp hok
      cases hentry : d.entry? origin with
      | none =>
        rw [hentry] at hok
        cases hok
      | some entry =>
        rw [hentry] at hok
        obtain ⟨place, hplace, hok⟩ := bind_eq_ok.mp hok
        cases hslash : endsInSlash (bytesOf source) || endsInSlash (bytesOf target) with
        | true =>
          rw [hslash] at hok
          cases hok
        | false =>
          rw [hslash] at hok
          obtain ⟨hends, hends'⟩ := Bool.or_eq_false_iff.mp hslash
          by_cases hdirectory : d.entry? place = some .directory
          · simp only [hdirectory] at hok
            cases hok
          · simp only [hdirectory] at hok
            cases hok
            exact ⟨origin, place, entry, locate_of_split hsource hends horigin,
              locate_of_split htarget hends' hplace, hentry, hdirectory, rfl⟩

theorem rename_of_split {source target : String} {dir dir' origin place : List FileName}
    {name name' : FileName} {entry : DiskEntry}
    (hsource : d.split (bytesOf source) = .ok (dir, some name))
    (htarget : d.split (bytesOf target) = .ok (dir', some name'))
    (horigin : d.follow dir [name] = .ok origin) (hplace : d.follow dir' [name'] = .ok place)
    (hends : endsInSlash (bytesOf source) = false) (hends' : endsInSlash (bytesOf target) = false)
    (hentry : d.entry? origin = some entry) (hfree : d.entry? place ≠ some .directory) :
    d.rename source target = .ok ((d.erase origin).put place entry) := by
  refine bind_eq_ok.mpr ⟨_, hsource, bind_eq_ok.mpr ⟨_, htarget, bind_eq_ok.mpr ⟨_, horigin, ?_⟩⟩⟩
  rw [hentry]
  refine bind_eq_ok.mpr ⟨_, hplace, ?_⟩
  rw [hends, hends', if_neg hfree]
  rfl

/-! ## Files that are written -/

/-- The disk `d'` has files at the given places, and otherwise at most more directories than `d`. -/
structure Written (places : List (List FileName)) (d d' : Disk) : Prop where
  cwd : d'.cwd = d.cwd
  free : ∀ place ∈ places, d.entry? place ≠ some .directory
  written : ∀ place ∈ places, ∃ content, d'.entry? place = some (.file content)
  other : ∀ path, path ∉ places → d'.entry? path = d.entry? path ∨
    d.entry? path = none ∧ d'.entry? path = some .directory

namespace Written

variable {places places' : List (List FileName)}

theorem refl (d : Disk) : Written [] d d :=
  ⟨rfl, fun _ h => absurd h List.not_mem_nil, fun _ h => absurd h List.not_mem_nil,
    fun _ _ => Or.inl rfl⟩

/-- What stands at a path stays, unless a file is written there. -/
theorem entry (h : Written places d d') (hpath : path ∉ places) {entry : DiskEntry}
    (hentry : d.entry? path = some entry) : d'.entry? path = some entry := by
  rcases h.other path hpath with hsame | ⟨hnone, _⟩
  · exact hsame.trans hentry
  · cases hentry.symm.trans hnone

theorem keepsDirectories (h : Written places d d') : d.KeepsDirectories d' :=
  ⟨h.cwd, fun path hpath => h.entry (fun hmem => h.free path hmem hpath) hpath⟩

theorem not_directory (h : Written places d d') (hpath : path ∈ places) :
    d'.entry? path ≠ some .directory := by
  obtain ⟨content, hcontent⟩ := h.written path hpath
  intro hentry
  cases hcontent.symm.trans hentry

theorem trans {d'' : Disk} (h : Written places d d') (h' : Written places' d' d'') :
    Written (places ++ places') d d'' := by
  refine ⟨h'.cwd.trans h.cwd, fun place hplace hentry => ?_, fun place hplace => ?_,
    fun path hpath => ?_⟩
  · rcases List.mem_append.mp hplace with hmem | hmem
    · exact h.free place hmem hentry
    · exact h'.free place hmem (h.keepsDirectories.directory place hentry)
  · by_cases hlater : place ∈ places'
    · exact h'.written place hlater
    · obtain ⟨content, hcontent⟩ :=
        h.written place ((List.mem_append.mp hplace).resolve_right hlater)
      exact ⟨content, h'.entry hlater hcontent⟩
  · rw [List.mem_append, not_or] at hpath
    rcases h.other path hpath.1 with hsame | ⟨hnone, hmade⟩
    · rw [← hsame]
      exact h'.other path hpath.2
    · exact Or.inr ⟨hnone, h'.entry hpath.2 hmade⟩

theorem putDirectory {place : List FileName} (hplace : d.entry? place = none) :
    Written [] d (d.put place .directory) := by
  have hne : place ≠ [] := by
    rintro rfl
    cases hplace
  refine ⟨put_cwd .., fun _ h => absurd h List.not_mem_nil, fun _ h => absurd h List.not_mem_nil,
    fun path _ => ?_⟩
  rw [entry?_put hne]
  split
  · rename_i hsame
    rw [hsame]
    exact Or.inr ⟨hplace, rfl⟩
  · exact Or.inl rfl

theorem putFile {place : List FileName} (hplace : d.entry? place ≠ some .directory)
    (content : List UInt8) : Written [place] d (d.put place (.file content)) := by
  have hput := entry?_put (ne_nil_of_not_directory hplace) d (.file content)
  refine ⟨put_cwd .., fun path hpath => ?_, fun path hpath => ⟨content, ?_⟩, fun path hpath => ?_⟩
  · rw [List.mem_singleton.mp hpath]
    exact hplace
  · rw [hput, if_pos (List.mem_singleton.mp hpath)]
  · rw [hput, if_neg fun hsame => hpath (List.mem_singleton.mpr hsame)]
    exact Or.inl rfl

end Written

theorem makeDirectory_written {path : String} (hok : d.makeDirectory path = .ok d') :
    Written [] d d' := by
  obtain ⟨place, hplace, rfl⟩ := makeDirectory_eq_ok hok
  exact .putDirectory hplace

theorem makeDirectories_written (fuel : Nat) (path : String) (d : Disk) :
    Written [] d (makeDirectories fuel path d).2 := by
  induction fuel generalizing path d with
  | zero => exact .refl d
  | succ fuel ih =>
    rw [makeDirectories]
    by_cases hempty : path = ""
    · rw [if_pos hempty]
      exact .refl d
    rw [if_neg hempty, get_bind_apply]
    cases hmade : d.makeDirectory path with
    | ok d₁ => exact makeDirectory_written hmade
    | error fault =>
      cases fault
      case missing =>
        cases hparent : UnixPath.parentText? path with
        | none => exact .refl d
        | some parent =>
          -- the directory above is made first, and then this one
          simp only
          rw [bind_apply]
          have habove := ih parent d
          rcases hrun : makeDirectories fuel parent d with ⟨result, d₁⟩
          rw [hrun] at habove
          cases result with
          | error fault => exact habove
          | ok _ =>
            simp only
            rw [get_bind_apply]
            cases hmade' : d₁.makeDirectory path with
            | ok d₂ => exact habove.trans (makeDirectory_written hmade')
            | error fault => exact habove
      all_goals exact .refl d

end XsdTypes.Disk
