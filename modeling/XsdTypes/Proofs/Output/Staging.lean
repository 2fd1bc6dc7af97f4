import XsdTypes.Output.Staging
import XsdTypes.Proofs.Files.Disk

/-!
# Files that cannot be written

If the files cannot all be written under their temporary names, no file is lost or added, but for
files that had one of these names before. When the files are moved into their places it is too late
for that: if one cannot be moved, others may have been moved already. This happens only if a place
is a directory, has no name of its own, or is the place of two files.
-/

namespace XsdTypes.Staging

open Sequencing Disk

variable {s : Staging} {d d' : Disk} {root : String} {files : Table} {places : List String}
  {result : Except ExportError Unit}

/-! ## Writing temporary files -/

/-- Where the temporary file of a place is. -/
def TemporaryAt (d : Disk) (place : String) (path : List FileName) : Prop :=
  d.locate (bytesOf (temporary place)) = .ok path

theorem TemporaryAt.mono {place : String} {path : List FileName} (h : TemporaryAt d place path)
    (hkeeps : d.KeepsDirectories d') : TemporaryAt d' place path :=
  hkeeps.locate h

/-- A temporary file is written, or the text cannot be written and nothing happens. -/
theorem writeText_bind_eq {place text : String} {r : Except ExportError String} {d₁ : Disk}
    {rest : Except FileFault Unit → StateM Disk (Except ExportError String)} (hd : Written [] d d₁)
    (hfault : ∀ fault, ∃ e, rest (.error fault) = pure (.error e))
    (hdone : rest (.ok ()) = pure (.ok place))
    (hrun : (system.writeText (temporary place) text >>= rest) d₁ = (r, d')) :
    (∃ e, r = .error e ∧ Written [] d d') ∨
    ∃ temp, r = .ok place ∧ TemporaryAt d' place temp ∧ Written [temp] d d' := by
  rw [bind_apply] at hrun
  cases hwrite : d₁.writeText (temporary place) text with
  | error fault =>
    have hchange : system.writeText (temporary place) text d₁ = (.error fault, d₁) :=
      change_of_error hwrite
    obtain ⟨e, he⟩ := hfault fault
    rw [hchange, he] at hrun
    cases hrun
    exact Or.inl ⟨e, rfl, hd⟩
  | ok d₂ =>
    have hchange : system.writeText (temporary place) text d₁ = (.ok (), d₂) := change_of_ok hwrite
    rw [hchange, hdone] at hrun
    cases hrun
    obtain ⟨temp, htemp, hfree, rfl⟩ := writeText_eq_ok hwrite
    have hwritten := Written.putFile hfree (bytesOf text)
    exact Or.inr ⟨temp, rfl, hwritten.keepsDirectories.locate htemp, hd.trans hwritten⟩

/-- One file is written under its temporary name, or none is. -/
theorem writeTemporary_eq {path text : String} {r : Except ExportError String}
    (hrun : writeTemporary system root path text d = (r, d')) :
    (∃ e, r = .error e ∧ Written [] d d') ∨
    ∃ place temp, r = .ok place ∧ placeOf root path = .ok place ∧ TemporaryAt d' place temp ∧
      Written [temp] d d' := by
  unfold writeTemporary at hrun
  cases hplace : placeOf root path with
  | error e =>
    rw [hplace] at hrun
    cases hrun
    exact Or.inl ⟨e, rfl, .refl d⟩
  | ok place =>
    rw [hplace] at hrun
    have hwritten : (∃ e, r = .error e ∧ Written [] d d') ∨
        ∃ temp, r = .ok place ∧ TemporaryAt d' place temp ∧ Written [temp] d d' := by
      simp only at hrun
      cases hparent : UnixPath.parentText? place with
      | none =>
        rw [hparent] at hrun
        simp only at hrun
        rw [bind_apply, pure_apply] at hrun
        exact writeText_bind_eq (.refl d) (fun fault => ⟨_, rfl⟩) rfl hrun
      | some parent =>
        rw [hparent] at hrun
        simp only at hrun
        rw [bind_apply] at hrun
        have hmade : Written [] d (system.createDirectories parent d).2 :=
          makeDirectories_written _ parent d
        rcases hmake : system.createDirectories parent d with ⟨made, d₁⟩
        rw [hmake] at hrun hmade
        cases made with
        | error fault =>
          cases hrun
          exact Or.inl ⟨_, rfl, hmade⟩
        | ok _ => exact writeText_bind_eq hmade (fun fault => ⟨_, rfl⟩) rfl hrun
    rcases hwritten with herror | ⟨temp, hr, htemp, hwritten⟩
    · exact Or.inl herror
    · exact Or.inr ⟨place, temp, hr, rfl, htemp, hwritten⟩

/-- The temporary files that have been written, with the places they are for. -/
theorem writeTemporaries_eq
    (hrun : writeTemporaries system root files d = ((places, result), d')) :
    ∃ temps, Written temps d d' ∧ List.Forall₂ (TemporaryAt d') places temps ∧
      (∀ place ∈ places, ∃ file ∈ files, placeOf root file.1 = .ok place) := by
  induction files generalizing d places with
  | nil =>
    cases hrun
    exact ⟨[], .refl _, .nil, fun _ h => absurd h List.not_mem_nil⟩
  | cons file files ih =>
    obtain ⟨path, text⟩ := file
    rw [writeTemporaries, bind_apply] at hrun
    rcases hfirst : writeTemporary system root path text d with ⟨r, d₁⟩
    rw [hfirst] at hrun
    rcases writeTemporary_eq hfirst with ⟨e, rfl, hwritten⟩ |
      ⟨place, temp, rfl, hplace, htemp, hwritten⟩
    · cases hrun
      exact ⟨[], hwritten, .nil, fun _ h => absurd h List.not_mem_nil⟩
    · simp only at hrun
      rw [bind_apply] at hrun
      rcases hrest : writeTemporaries system root files d₁ with ⟨⟨places', result'⟩, d₂⟩
      rw [hrest] at hrun
      cases hrun
      obtain ⟨temps, hwritten', htemps, hplaces⟩ := ih hrest
      refine ⟨temp :: temps, hwritten.trans hwritten',
        .cons (htemp.mono hwritten'.keepsDirectories) htemps, fun place' hplace' => ?_⟩
      rcases List.mem_cons.mp hplace' with rfl | hmem
      · exact ⟨(path, text), List.mem_cons_self, hplace⟩
      · obtain ⟨file, hfile, hof⟩ := hplaces place' hmem
        exact ⟨file, List.mem_cons_of_mem _ hfile, hof⟩

/-! ## Removing temporary files -/

/-- A temporary file is erased, unless it has been erased before. -/
theorem remove_entries {place : String} {temp : List FileName} (htemp : TemporaryAt d place temp)
    (hfree : d.entry? temp ≠ some .directory) :
    d.KeepsDirectories (system.remove (temporary place) d).2 ∧
      ∀ path, Disk.entry? (system.remove (temporary place) d).2 path =
        if path = temp then none else d.entry? path := by
  rcases remove_cases htemp hfree with hok | ⟨hnone, herror⟩
  · have hchange : system.remove (temporary place) d = (.ok (), d.erase temp) := change_of_ok hok
    have herase := entry?_erase (ne_nil_of_not_directory hfree) d
    rw [hchange]
    refine ⟨⟨rfl, fun path hpath => ?_⟩, herase⟩
    have hne : path ≠ temp := fun hsame => hfree (hsame ▸ hpath)
    rw [herase, if_neg hne]
    exact hpath
  · have hchange : system.remove (temporary place) d = (.error .missing, d) :=
      change_of_error herror
    rw [hchange]
    refine ⟨.refl d, fun path => ?_⟩
    split
    · rename_i hsame
      rw [hsame]
      exact hnone
    · rfl

theorem removeTemporaries_entries {temps : List (List FileName)}
    (htemps : List.Forall₂ (TemporaryAt d) places temps)
    (hfree : ∀ temp ∈ temps, d.entry? temp ≠ some .directory) :
    d.KeepsDirectories (removeTemporaries system places d).2 ∧
      ∀ path, Disk.entry? (removeTemporaries system places d).2 path =
        if path ∈ temps then none else d.entry? path := by
  induction places generalizing d temps with
  | nil =>
    cases htemps
    exact ⟨.refl d, fun path => by rw [if_neg List.not_mem_nil]; rfl⟩
  | cons place places ih =>
    cases htemps with
    | @cons _ temp _ temps htemp htemps =>
      rw [removeTemporaries, bind_apply]
      obtain ⟨hkeeps, hentry⟩ := remove_entries htemp (hfree temp List.mem_cons_self)
      have hfree' : ∀ temp' ∈ temps,
          Disk.entry? (system.remove (temporary place) d).2 temp' ≠ some .directory := by
        intro temp' htemp'
        rw [hentry]
        split
        · exact fun h => by cases h
        · exact hfree temp' (List.mem_cons_of_mem _ htemp')
      obtain ⟨hkeeps', hentry'⟩ := ih (htemps.imp fun _ _ h => h.mono hkeeps) hfree'
      refine ⟨hkeeps.trans hkeeps', fun path => ?_⟩
      rw [hentry', hentry]
      by_cases hsame : path = temp <;> simp [hsame]

/-! ## Moving temporary files -/

/-- A file has been moved from one path to another. -/
structure Moved (temp place : List FileName) (d d' : Disk) : Prop where
  keeps : d.KeepsDirectories d'
  directory : ∀ path, d'.entry? path = some .directory → d.entry? path = some .directory
  file : ∀ path, path ≠ temp → (∃ content, d.entry? path = some (.file content)) →
    ∃ content, d'.entry? path = some (.file content)
  other : ∀ path, path ≠ temp → path ≠ place → d'.entry? path = d.entry? path

theorem Moved.of_entry {temp place : List FileName} {entry : DiskEntry}
    (hentry : d.entry? temp = some entry) (hfree : d.entry? temp ≠ some .directory)
    (hplace : d.entry? place ≠ some .directory) :
    Moved temp place d ((d.erase temp).put place entry) := by
  have hat : ∀ path, Disk.entry? ((d.erase temp).put place entry) path =
      if path = place then some entry else if path = temp then none else d.entry? path := by
    intro path
    rw [entry?_put (ne_nil_of_not_directory hplace), entry?_erase (ne_nil_of_not_directory hfree)]
  cases entry with
  | directory => exact absurd hentry hfree
  | file content =>
    refine ⟨⟨put_cwd .., fun path hpath => ?_⟩, fun path hpath => ?_, fun path hne hfile => ?_,
      fun path hne hne' => ?_⟩
    · have hne : path ≠ place := fun hsame => hplace (hsame ▸ hpath)
      have hne' : path ≠ temp := fun hsame => hfree (hsame ▸ hpath)
      rw [hat, if_neg hne, if_neg hne']
      exact hpath
    · rw [hat] at hpath
      split at hpath
      · cases hpath
      · split at hpath
        · cases hpath
        · exact hpath
    · rw [hat, if_neg hne]
      split
      · exact ⟨content, rfl⟩
      · exact hfile
    · rw [hat, if_neg hne', if_neg hne]

/-- A temporary file is moved into its place, or it cannot be moved and nothing happens. -/
theorem rename_cases {place : String} {temp : List FileName} (htemp : TemporaryAt d place temp)
    (hfree : d.entry? temp ≠ some .directory) :
    (∃ fault, system.rename (temporary place) place d = (.error fault, d)) ∨
    ∃ path d', system.rename (temporary place) place d = (.ok (), d') ∧
      d.locate (bytesOf place) = .ok path ∧ Moved temp path d d' := by
  cases hrename : d.rename (temporary place) place with
  | error fault => exact Or.inl ⟨fault, change_of_error hrename⟩
  | ok d' =>
    obtain ⟨origin, path, entry, horigin, hpath, hentry, hplace, rfl⟩ := rename_eq_ok hrename
    cases horigin.symm.trans htemp
    exact Or.inr ⟨path, _, change_of_ok hrename, hpath, .of_entry hentry hfree hplace⟩

/-- Whatever comes of it, directories stay, and files other than the temporary ones and those at the
places stay too. -/
theorem moveIntoPlace_other {temps : List (List FileName)}
    (htemps : List.Forall₂ (TemporaryAt d) places temps)
    (hfree : ∀ temp ∈ temps, d.entry? temp ≠ some .directory) :
    d.KeepsDirectories (moveIntoPlace system places d).2 ∧
      ∀ path, path ∉ temps →
        (∀ place ∈ places, (moveIntoPlace system places d).2.locate (bytesOf place) ≠ .ok path) →
        Disk.entry? (moveIntoPlace system places d).2 path = d.entry? path := by
  induction places generalizing d temps with
  | nil => exact ⟨.refl d, fun _ _ _ => rfl⟩
  | cons place places ih =>
    cases htemps with
    | @cons _ temp _ temps htemp htemps =>
      rw [moveIntoPlace, bind_apply]
      rcases rename_cases htemp (hfree temp List.mem_cons_self) with ⟨fault, heq⟩ |
        ⟨path, d₁, heq, hpath, hmoved⟩
      · rw [heq]
        exact ⟨.refl d, fun _ _ _ => rfl⟩
      · rw [heq]
        simp only
        have hfree' : ∀ temp' ∈ temps, d₁.entry? temp' ≠ some .directory := fun temp' htemp' h =>
          hfree temp' (List.mem_cons_of_mem _ htemp') (hmoved.directory temp' h)
        obtain ⟨hkeeps, hother⟩ := ih (htemps.imp fun _ _ h => h.mono hmoved.keeps) hfree'
        refine ⟨hmoved.keeps.trans hkeeps, fun q hq hne => ?_⟩
        rw [List.mem_cons, not_or] at hq
        rw [hother q hq.2 fun place' hplace' => hne place' (List.mem_cons_of_mem _ hplace')]
        refine hmoved.other q hq.1 fun hsame => ?_
        exact hne place List.mem_cons_self (hsame ▸ (hmoved.keeps.trans hkeeps).locate hpath)

theorem bytesOf_temporary (place : String) :
    bytesOf (temporary place) = bytesOf place ++ bytesOf ".tmp" := by
  simp [bytesOf, temporary, Chars.bytes, List.flatMap_append]

/-- The place of a temporary file that has been written is beside it. -/
theorem TemporaryAt.exists_beside {place : String} {temp : List FileName}
    (htemp : TemporaryAt d place temp) (hnamed : IsNamed (bytesOf place)) :
    ∃ dir name, temp = dir ++ [name ++ bytesOf ".tmp"] ∧
      d.locate (bytesOf place) = .ok (dir ++ [name]) ∧
      ∀ entry, d.entry? temp = some entry → d.entry? (dir ++ [name]) ≠ some .directory →
        d.rename (temporary place) place = .ok ((d.erase temp).put (dir ++ [name]) entry) := by
  unfold TemporaryAt at htemp
  rw [bytesOf_temporary] at htemp
  obtain ⟨dir, name, hat, hlocate, hsplit, hsplit', hfollow, hfollow', hends⟩ :=
    Disk.exists_beside hnamed (by decide) (by decide) htemp
  rw [← bytesOf_temporary] at hsplit' hends
  exact ⟨dir, name, hat, hlocate, fun entry hentry hfree =>
    rename_of_split hsplit' hsplit hfollow' hfollow hends hnamed.1 hentry hfree⟩

/-- Named places are as easy to find as the temporary files beside them, and they stay where they
are as long as the directories stay. -/
theorem map_locate_eq {temps : List (List FileName)}
    (htemps : List.Forall₂ (TemporaryAt d) places temps)
    (hnamed : ∀ place ∈ places, IsNamed (bytesOf place)) (hkeeps : d.KeepsDirectories d') :
    (places.map fun place => d'.locate (bytesOf place)) =
      places.map fun place => d.locate (bytesOf place) := by
  induction htemps with
  | nil => rfl
  | cons htemp _ ih =>
    obtain ⟨_, _, _, hlocate, _⟩ := htemp.exists_beside (hnamed _ List.mem_cons_self)
    rw [List.map_cons, List.map_cons, hlocate, hkeeps.locate hlocate,
      ih fun place hplace => hnamed place (List.mem_cons_of_mem _ hplace)]

/-- Files that have different places, none of them a directory, can all be moved. -/
theorem moveIntoPlace_ok {temps : List (List FileName)}
    (htemps : List.Forall₂ (TemporaryAt d) places temps)
    (hwritten : ∀ temp ∈ temps, ∃ content, d.entry? temp = some (.file content))
    (hnamed : ∀ place ∈ places, IsNamed (bytesOf place))
    (hfree : ∀ place ∈ places, d.isDirectory place ≠ true)
    (hnodup : (places.map fun place => d.locate (bytesOf place)).Nodup) :
    (moveIntoPlace system places d).1 = .ok () := by
  induction places generalizing d temps with
  | nil => rfl
  | cons place places ih =>
    cases htemps with
    | @cons _ temp _ temps htemp htemps =>
      obtain ⟨dir, name, rfl, hlocate, hrename⟩ :=
        htemp.exists_beside (hnamed place List.mem_cons_self)
      obtain ⟨content, hcontent⟩ := hwritten _ List.mem_cons_self
      have hplace : d.entry? (dir ++ [name]) ≠ some .directory := fun h =>
        hfree place List.mem_cons_self ((isDirectory_of_locate hlocate).mpr h)
      have hmoved := Moved.of_entry hcontent (by rw [hcontent]; exact fun h => by cases h) hplace
      have hchange : system.rename (temporary place) place d = (.ok (), _) :=
        change_of_ok (hrename _ hcontent hplace)
      have hnamed' : ∀ place' ∈ places, IsNamed (bytesOf place') := fun place' hplace' =>
        hnamed place' (List.mem_cons_of_mem _ hplace')
      rw [List.map_cons, List.nodup_cons] at hnodup
      rw [moveIntoPlace, bind_apply, hchange]
      refine ih (htemps.imp fun _ _ h => h.mono hmoved.keeps) (fun temp htemp' => ?_) hnamed'
        (fun place' hplace' hdirectory => ?_) ?_
      -- the temporary file of another place is another file
      · obtain ⟨place', hplace', hat⟩ := exists_of_forall₂ htemps.flip htemp'
        obtain ⟨dir', name', rfl, hlocate', _⟩ :=
          TemporaryAt.exists_beside hat (hnamed' place' hplace')
        refine hmoved.file _ (fun hsame => hnodup.1 ?_) (hwritten _ (List.mem_cons_of_mem _ htemp'))
        obtain ⟨rfl, hname⟩ := List.append_inj' hsame rfl
        cases List.append_cancel_right (List.cons.inj hname).1
        rw [hlocate, ← hlocate']
        exact List.mem_map_of_mem hplace'
      · obtain ⟨temp', _, hat⟩ := exists_of_forall₂ htemps hplace'
        obtain ⟨_, _, _, hlocate', _⟩ := hat.exists_beside (hnamed' place' hplace')
        have hentry := (isDirectory_of_locate (hmoved.keeps.locate hlocate')).mp hdirectory
        exact hfree place' (List.mem_cons_of_mem _ hplace')
          ((isDirectory_of_locate hlocate').mpr (hmoved.directory _ hentry))
      · rw [map_locate_eq htemps hnamed' hmoved.keeps]
        exact hnodup.2

/-! ## All or nothing -/

/-- The path is that of a temporary file. -/
def IsTemporary (s : Staging) (d : Disk) (path : List FileName) : Prop :=
  ∃ file ∈ s.files, ∃ place, placeOf s.root file.1 = .ok place ∧ TemporaryAt d place path

theorem file?_congr {path : List FileName} (h : d'.entry? path = d.entry? path) :
    d'.file? path = d.file? path := by
  rw [file?, h, file?]

/-- Directories that are made are no files. -/
theorem file?_of_written {temps : List (List FileName)} (h : Written temps d d')
    {path : List FileName} (hpath : path ∉ temps) : d'.file? path = d.file? path := by
  rcases h.other path hpath with hsame | ⟨hnone, hmade⟩
  · exact file?_congr hsame
  · rw [file?, hmade, file?, hnone]

section Outcome

variable {temps : List (List FileName)} {e : ExportError}

/-- If the temporary files are removed again, all other files are as they were. -/
theorem removeTemporaries_file? {d₁ : Disk} (hwritten : Written temps d d₁)
    (htemps : List.Forall₂ (TemporaryAt d₁) places temps) (path : List FileName) :
    (removeTemporaries system places d₁).2.file? path =
      if path ∈ temps then none else d.file? path := by
  obtain ⟨_, hentry⟩ := removeTemporaries_entries htemps fun _ => hwritten.not_directory
  by_cases hpath : path ∈ temps
  · rw [file?, hentry, if_pos hpath, if_pos hpath]
  · have hsame : (removeTemporaries system places d₁).2.file? path = d₁.file? path := by
      apply file?_congr
      rw [hentry, if_neg hpath]
    rw [hsame, file?_of_written hwritten hpath, if_neg hpath]

/-- Files are moved only to their places. -/
theorem moveIntoPlace_file? {d₁ : Disk} (hwritten : Written temps d d₁)
    (htemps : List.Forall₂ (TemporaryAt d₁) places temps)
    (hmove : moveIntoPlace system places d₁ = (result, d')) (path : List FileName) :
    d'.file? path = d.file? path ∨ path ∈ temps ∨
      ∃ place ∈ places, d'.locate (bytesOf place) = .ok path := by
  obtain ⟨_, hother⟩ := moveIntoPlace_other htemps fun _ => hwritten.not_directory
  rw [hmove] at hother
  by_cases hpath : path ∈ temps
  · exact Or.inr (Or.inl hpath)
  by_cases hplace : ∃ place ∈ places, d'.locate (bytesOf place) = .ok path
  · exact Or.inr (Or.inr hplace)
  · have hsame := hother path hpath fun place hmem hat => hplace ⟨place, hmem, hat⟩
    exact Or.inl ((file?_congr hsame).trans (file?_of_written hwritten hpath))

/-- A file that cannot be moved has no place for itself. -/
theorem moveIntoPlace_error {d₁ : Disk} (hwritten : Written temps d d₁)
    (htemps : List.Forall₂ (TemporaryAt d₁) places temps)
    (hmove : moveIntoPlace system places d₁ = (.error e, d')) :
    (∃ place ∈ places, ¬ IsNamed (bytesOf place) ∨ d'.isDirectory place = true) ∨
      ¬ (places.map fun place => d'.locate (bytesOf place)).Nodup := by
  obtain ⟨hkeeps, _⟩ := moveIntoPlace_other htemps fun _ => hwritten.not_directory
  rw [hmove] at hkeeps
  by_contra hnone
  rw [not_or, not_not] at hnone
  obtain ⟨hall, hnodup⟩ := hnone
  have hnamed : ∀ place ∈ places, IsNamed (bytesOf place) := by
    intro place hplace
    by_contra hunnamed
    exact hall ⟨place, hplace, Or.inl hunnamed⟩
  have hfree : ∀ place ∈ places, d₁.isDirectory place ≠ true := by
    intro place hplace hdirectory
    exact hall ⟨place, hplace, Or.inr (hkeeps.isDirectory hdirectory)⟩
  -- otherwise all files would have been moved
  have hok := moveIntoPlace_ok htemps hwritten.written hnamed hfree
    (map_locate_eq htemps hnamed hkeeps ▸ hnodup)
  rw [hmove] at hok
  cases hok

end Outcome

/-- If the files cannot all be written, there are two cases. Either the temporary files could not
all be written. Then all files are as they were, but for files that had the name of a temporary
file, and are gone. Or a file could not be moved into its place. Then the files are as they were
that are neither temporary nor at one of the places, and there is a place that has no name of its
own or is a directory, or two files have the same place. -/
theorem finish_error {s : Staging} {d d' : Disk} {e : ExportError}
    (herror : s.finish system d = (.error e, d')) :
    (∀ path, d'.file? path = d.file? path ∨ d'.file? path = none ∧ s.IsTemporary d' path) ∨
    ∃ places d₁, writeTemporaries system s.root s.files d = ((places, .ok ()), d₁) ∧
      (∀ path, d'.file? path = d.file? path ∨ s.IsTemporary d' path ∨
        ∃ place ∈ places, d'.locate (bytesOf place) = .ok path) ∧
      ((∃ place ∈ places, ¬ IsNamed (bytesOf place) ∨ d'.isDirectory place = true) ∨
        ¬ (places.map fun place => d'.locate (bytesOf place)).Nodup) := by
  rw [finish, bind_apply] at herror
  rcases hrun : writeTemporaries system s.root s.files d with ⟨⟨places, result⟩, d₁⟩
  rw [hrun] at herror
  obtain ⟨temps, hwritten, htemps, hplaces⟩ := writeTemporaries_eq hrun
  have hfree : ∀ temp ∈ temps, d₁.entry? temp ≠ some .directory := fun _ => hwritten.not_directory
  have htemporary : ∀ {d₂}, d₁.KeepsDirectories d₂ → ∀ path ∈ temps, s.IsTemporary d₂ path := by
    intro d₂ hkeeps path hpath
    obtain ⟨place, hplace, hat⟩ := exists_of_forall₂ htemps.flip hpath
    obtain ⟨file, hfile, hof⟩ := hplaces place hplace
    exact ⟨file, hfile, place, hof, TemporaryAt.mono hat hkeeps⟩
  cases result with
  | error e₁ =>
    obtain ⟨hkeeps, _⟩ := removeTemporaries_entries htemps hfree
    have hfile := removeTemporaries_file? hwritten htemps
    simp only at herror
    rw [bind_apply] at herror
    cases herror
    refine Or.inl fun path => ?_
    by_cases hpath : path ∈ temps
    · exact Or.inr ⟨(hfile path).trans (if_pos hpath), htemporary hkeeps path hpath⟩
    · exact Or.inl ((hfile path).trans (if_neg hpath))
  | ok _ =>
    have hmove : moveIntoPlace system places d₁ = (.error e, d') := herror
    obtain ⟨hkeeps, _⟩ := moveIntoPlace_other htemps hfree
    rw [hmove] at hkeeps
    refine Or.inr ⟨places, d₁, rfl, fun path => ?_, moveIntoPlace_error hwritten htemps hmove⟩
    rcases moveIntoPlace_file? hwritten htemps hmove path with hsame | htemp | hplace
    · exact Or.inl hsame
    · exact Or.inr (Or.inl (htemporary hkeeps path htemp))
    · exact Or.inr (Or.inr hplace)

/-- Two files to be written. -/
def twoFiles : Staging where
  root := "out"
  staged := [("a.d.ts", "new"), ("b.d.ts", "b")]

/-- A disk where the first file is there, and so is a file with its temporary name. The temporary
name of the second file is that of a directory. -/
def crowdedDisk : Disk where
  entries := [([bytesOf "out"], .directory),
    ([bytesOf "out", bytesOf "a.d.ts"], .file (bytesOf "old")),
    ([bytesOf "out", bytesOf "a.d.ts.tmp"], .file (bytesOf "mine")),
    ([bytesOf "out", bytesOf "b.d.ts.tmp"], .directory)]

theorem finish_error_example : ∃ e d', twoFiles.finish system crowdedDisk = (.error e, d') ∧
    ∀ path, d'.file? path = crowdedDisk.file? path ∨
      d'.file? path = none ∧ twoFiles.IsTemporary d' path := by
  have hfault : (writeTemporaries system twoFiles.root twoFiles.files crowdedDisk).1.2.toOption =
      none := by decide +kernel
  have hfails : (twoFiles.finish system crowdedDisk).1.toOption = none := by decide +kernel
  rcases hfinish : twoFiles.finish system crowdedDisk with ⟨result, d'⟩
  rw [hfinish] at hfails
  cases result with
  | ok _ => cases hfails
  | error e =>
    refine ⟨e, d', rfl, ?_⟩
    rcases finish_error hfinish with hsame | ⟨places, d₁, hrun, _⟩
    · exact hsame
    · rw [hrun] at hfault
      cases hfault

/-- Stages files one after the other. -/
def stageAll (s : Staging) (writes : List (String × String)) : Except ExportError Staging :=
  writes.foldlM (fun s write => s.stage write.1 write.2) s

/-- A disk where the first file is there, and the place of the second one is a directory. -/
def blockedDisk : Disk where
  entries := [([bytesOf "out"], .directory),
    ([bytesOf "out", bytesOf "a.d.ts"], .file (bytesOf "old")),
    ([bytesOf "out", bytesOf "b.d.ts"], .directory)]

/-- A file below the directory may be replaced although the files cannot all be written. -/
theorem not_all_or_nothing : ¬ ∀ (root : String) (index : Option String)
    (writes : List (String × String)) (s : Staging) (d d' : Disk) (e : ExportError),
    stageAll { root, index } writes = .ok s → s.finish system d = (.error e, d') →
      ∀ top path, d.locate (bytesOf root) = .ok top → top <+: path →
        d'.file? path = d.file? path := by
  intro hall
  have hrun : (stageAll { root := "out", index := some "_index.d.ts" }
      [("a.d.ts", "new"), ("b.d.ts", "b")]).toOption.map (fun s =>
        ((s.finish system blockedDisk).1.toOption,
          (s.finish system blockedDisk).2.file? [bytesOf "out", bytesOf "a.d.ts"])) =
      some (none, some (bytesOf "new")) := by decide +kernel
  obtain ⟨s, hstaged, hresult⟩ := eq_ok_of_toOption hrun
  rcases hfinish : s.finish system blockedDisk with ⟨result, d'⟩
  rw [hfinish] at hresult
  cases result with
  | ok _ => cases hresult
  | error e =>
    have hsame := hall "out" (some "_index.d.ts") _ s blockedDisk d' e hstaged hfinish
      [bytesOf "out"] [bytesOf "out", bytesOf "a.d.ts"] (by decide +kernel) (by simp)
    rw [(Prod.mk.inj hresult).2] at hsame
    exact absurd hsame (by decide +kernel)

end XsdTypes.Staging
