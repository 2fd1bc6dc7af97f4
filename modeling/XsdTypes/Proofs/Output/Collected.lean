import XsdTypes.Compile
import XsdTypes.Proofs.Model.ImportLists
import XsdTypes.Proofs.Sequencing

/-!
# No module is lost

Files are collected by their paths, and of two files with one path the later one would stay. The modules
of a model that is built have different paths, whatever paths they were to have, so that every module
that declares something is among the files, with its own text.
-/

namespace XsdTypes

/-! ## Tables -/

namespace Table

variable {key text : String} {table : Table}

theorem put_perm (hnew : key ∉ table.map Prod.fst) :
    (put key text table).Perm ((key, text) :: table) := by
  induction table with
  | nil => exact List.Perm.refl _
  | cons entry entries ih =>
    obtain ⟨k, t⟩ := entry
    rw [List.map_cons, List.mem_cons, not_or] at hnew
    rw [put]
    split
    · exact List.Perm.refl _
    · rw [if_neg hnew.1]
      exact ((ih hnew.2).cons (k, t)).trans (List.Perm.swap _ _ _)

theorem mem_keys_put {k : String} (h : k ∈ (put key text table).map Prod.fst) :
    k = key ∨ k ∈ table.map Prod.fst := by
  induction table with
  | nil => exact Or.inl (List.mem_singleton.mp h)
  | cons entry entries ih =>
    obtain ⟨k', t⟩ := entry
    rw [put] at h
    split at h
    · exact List.mem_cons.mp h
    · split at h
      · exact (List.mem_cons.mp h).imp_right (List.mem_cons_of_mem _)
      · rcases List.mem_cons.mp h with hfirst | hrest
        · exact Or.inr (hfirst ▸ List.mem_cons_self)
        · exact (ih hrest).imp_right (List.mem_cons_of_mem _)

/-- The keys stay in their order. -/
theorem pairwise_put (h : (table.map Prod.fst).Pairwise (· < ·)) :
    ((put key text table).map Prod.fst).Pairwise (· < ·) := by
  induction table with
  | nil => exact List.pairwise_singleton _ _
  | cons entry entries ih =>
    obtain ⟨k, t⟩ := entry
    obtain ⟨hfirst, hrest⟩ := List.pairwise_cons.mp h
    rw [put]
    split
    · rename_i hlt
      refine List.pairwise_cons.mpr ⟨fun k' hk' => ?_, h⟩
      rcases List.mem_cons.mp hk' with rfl | hk'
      · exact hlt
      · exact lt_trans hlt (hfirst k' hk')
    · rename_i hnlt
      split
      · rename_i heq
        rw [heq]
        exact h
      · rename_i hne
        refine List.pairwise_cons.mpr ⟨fun k' hk' => ?_, ih hrest⟩
        rcases mem_keys_put hk' with rfl | hk'
        · exact lt_of_le_of_ne (not_lt.mp hnlt) (Ne.symm hne)
        · exact hfirst k' hk'

end Table

/-! ## Collected files -/

theorem Script.append_extension_injective : Function.Injective (· ++ extension : String → String) := by
  intro path path' heq
  have hchars := congrArg String.toList heq
  simp only [String.toList_append, List.append_cancel_right_eq] at hchars
  exact String.toList_injective hchars

namespace Compile

open Script

theorem pairwise_collect (files : List File) : ((collect files).map Prod.fst).Pairwise (· < ·) :=
  List.foldlRecOn (motive := fun table : Table => (table.map Prod.fst).Pairwise (· < ·)) files _
    List.Pairwise.nil fun _ htable _ _ => Table.pairwise_put htable

theorem foldl_put_perm (files : List File) (table : Table)
    (hkeys : (files.map File.path ++ table.map Prod.fst).Nodup) :
    (files.foldl (fun map file => Table.put file.path file.text map) table).Perm
      (files.map (fun file => (file.path, file.text)) ++ table) := by
  induction files generalizing table with
  | nil => exact List.Perm.refl table
  | cons file files ih =>
    have hnew : file.path ∉ table.map Prod.fst := by
      rw [List.map_cons, List.cons_append, List.nodup_cons, List.mem_append, not_or] at hkeys
      exact hkeys.1.2
    have hput : (Table.put file.path file.text table).Perm ((file.path, file.text) :: table) :=
      Table.put_perm hnew
    have hkeys' : (files.map File.path ++
        (Table.put file.path file.text table).map Prod.fst).Nodup := by
      refine ((hput.map Prod.fst).append_left _).nodup_iff.mpr ?_
      exact List.perm_middle.nodup_iff.mpr hkeys
    exact (ih _ hkeys').trans ((hput.append_left _).trans List.perm_middle)

/-- Files with different paths are all there once they have been collected. -/
theorem collect_perm {files : List File} (hpaths : (files.map File.path).Nodup) :
    (collect files).Perm (files.map fun file => (file.path, file.text)) := by
  have hall := foldl_put_perm files [] (by simpa using hpaths)
  rwa [List.append_nil] at hall

end Compile

/-! ## Files of a model that is built -/

namespace Model

variable {m : Model}

/-- The modules with a named declaration that belongs to them. -/
def declaring (m : Model) : List ModuleId :=
  (List.range m.modules.size).filter fun i =>
    m.types.toList.any fun decl => decl.owner = i && !decl.isAnonymous

theorem lt_of_mem_declaring {i : ModuleId} (h : i ∈ m.declaring) : i < m.modules.size :=
  List.mem_range.mp (List.mem_of_mem_filter h)

theorem Indexed.declaring_eq (h : m.Indexed) : m.declaring =
    (List.range m.modules.size).filter fun i => !(m.moduleAt i).types.isEmpty := by
  refine List.filter_congr fun i hi => ?_
  have hlisted := fun id => h.listed i id (List.mem_range.mp hi)
  have hdeclared : (m.types.toList.any fun decl => decl.owner = i && !decl.isAnonymous) = true ↔
      ∃ id, id ∈ (m.moduleAt i).types := by
    rw [toList_eq_map_getD m.types]
    simp only [hlisted, List.any_map, List.any_eq_true, List.mem_range, Function.comp_apply,
      Bool.and_eq_true, decide_eq_true_eq, Bool.not_eq_true', typeAt]
  rw [Bool.eq_iff_iff, hdeclared, Bool.not_eq_true', List.isEmpty_eq_false_iff_exists_mem]

/-- Different modules have different paths. -/
theorem DistinctPaths.nodup_map (h : m.DistinctPaths) {ids : List ModuleId}
    (hids : ids ⊆ List.range m.modules.size) (hnodup : ids.Nodup) :
    (ids.map fun i => (m.moduleAt i).path).Nodup :=
  List.Nodup.map_on (fun i hi j hj heq =>
    h i j (List.mem_range.mp (hids hi)) (List.mem_range.mp (hids hj)) heq) hnodup

/-- The files of a model are its modules that declare something, each with its path and its text. -/
theorem Indexed.renderAll_eq_ok (h : m.Indexed) {files : List Script.File}
    (hfiles : Script.renderAll m = .ok files) :
    ∃ text : ModuleId → String, (∀ i ∈ m.declaring, Script.renderModule m i = .ok (text i)) ∧
      files = m.declaring.map fun i => ⟨(m.moduleAt i).path ++ Script.extension, text i⟩ := by
  have hmodules : m.modules.toList.filter (fun info => !info.types.isEmpty) =
      m.declaring.map m.moduleAt := by
    rw [h.declaring_eq, toList_eq_map_getD m.modules, List.filter_map]
    rfl
  rw [Script.renderAll, hmodules, Sequencing.mapM_eq_ok, List.forall₂_map_left_iff] at hfiles
  have hwritten : List.Forall₂ (fun i file => Script.renderModule m i = .ok file.text ∧
      file.path = (m.moduleAt i).path ++ Script.extension) m.declaring files := by
    refine ((List.forall₂_and_left _ _).mpr ⟨fun i => lt_of_mem_declaring, hfiles⟩).imp ?_
    rintro i file ⟨hi, hok⟩
    obtain ⟨text, htext, hpure⟩ := Sequencing.bind_eq_ok.mp hok
    cases hpure
    rw [h.id_eq i hi] at htext
    exact ⟨htext, rfl⟩
  have htext : ∀ {i text}, Script.renderModule m i = .ok text →
      (Script.renderModule m i).toOption.getD "" = text := by
    intro i text hok
    rw [hok]
    rfl
  refine ⟨fun i => (Script.renderModule m i).toOption.getD "", fun i hi => ?_, ?_⟩
  · obtain ⟨file, _, hok, _⟩ := Sequencing.exists_of_forall₂ hwritten hi
    simp only [htext hok]
    exact hok
  · refine (List.forall₂_eq_eq_eq ▸ List.forall₂_map_left_iff.mpr (hwritten.imp ?_)).symm
    rintro i file ⟨hok, hpath⟩
    simp only [htext hok, ← hpath]

/-- However a model is built, a module that is added gets the first of its paths that is free, no two
modules have the same path, and the files that are collected are the modules that declare something, each
once and with its own text. -/
theorem Built.collects_modules (h : m.Built) :
    (∀ uri path, Text.IsFirstFree "_" path m.paths
      ((m.addModule uri path).1.moduleAt (m.addModule uri path).2).path) ∧
    m.paths.Nodup ∧
    ∀ files, Script.renderAll m = .ok files →
      ((Compile.collect files).map Prod.fst).Pairwise (· < ·) ∧
      ∃ text : ModuleId → String, (∀ i ∈ m.declaring, Script.renderModule m i = .ok (text i)) ∧
        (Compile.collect files).Perm
          (m.declaring.map fun i => ((m.moduleAt i).path ++ Script.extension, text i)) := by
  have hpaths := h.unlinked.paths
  refine ⟨fun uri path => ?_, ?_, fun files hfiles => ⟨Compile.pairwise_collect files, ?_⟩⟩
  · have hadded : (m.addModule uri path).2 = m.modules.size := rfl
    rw [hadded, moduleAt_addModule, if_pos rfl]
    exact Text.fresh_isFirstFree "_" path m.paths
  · have hnodup := hpaths.nodup_map (List.Subset.refl _) List.nodup_range
    rwa [paths, toList_eq_map_getD m.modules, List.map_map]
  · obtain ⟨text, htext, rfl⟩ := h.indexed.renderAll_eq_ok hfiles
    refine ⟨text, htext, (Compile.collect_perm ?_).trans ?_⟩
    · have hnodup := (hpaths.nodup_map (fun i hi => List.mem_range.mpr (lt_of_mem_declaring hi))
        (List.nodup_range.filter _)).map Script.append_extension_injective
      rw [List.map_map] at hnodup ⊢
      exact hnodup
    · rw [List.map_map]
      exact List.Perm.refl _

/-- Three modules of which two were to have the same path. What that path is with a number is the path of
the one between them. -/
def crowdedModel : Model :=
  let m := ((({} : Model).addModule "urn:a" "x").1.addModule "urn:b" "x_2").1
  let m := ((m.addModule "urn:c" "x").1.addType (TypeDecl.ofSchema 0 (some "T") .interface)).1
  (m.addType (TypeDecl.ofSchema 2 (some "T") .synonym)).1

theorem built_crowdedModel : crowdedModel.Built := by
  refine .addType (.addType (.addModule (.addModule (.addModule .empty _ _) _ _) _ _) _ fun _ => ?_) _
    fun _ => ?_
  · decide +kernel
  · decide +kernel

theorem Built.collects_modules_example : crowdedModel.Built ∧
    crowdedModel.paths = ["x", "x_2", "x_3"] ∧ crowdedModel.paths.Nodup ∧
    ∃ (files : List Script.File) (text : ModuleId → String), Script.renderAll crowdedModel = .ok files ∧
      Script.renderModule crowdedModel 2 = .ok (text 2) ∧
      (Compile.collect files).Perm [("x.d.ts", text 0), ("x_3.d.ts", text 2)] := by
  obtain ⟨_, hnodup, hcollects⟩ := Built.collects_modules built_crowdedModel
  have hrender : (Script.renderAll crowdedModel).toOption.map (fun files => files.length) =
      some 2 := by decide +kernel
  obtain ⟨files, hfiles, _⟩ := Sequencing.eq_ok_of_toOption hrender
  obtain ⟨_, text, htext, hperm⟩ := hcollects files hfiles
  have hdeclaring : crowdedModel.declaring = [0, 2] := by decide +kernel
  have hpaths : (crowdedModel.moduleAt 0).path ++ Script.extension = "x.d.ts" ∧
      (crowdedModel.moduleAt 2).path ++ Script.extension = "x_3.d.ts" := by decide +kernel
  rw [hdeclaring] at htext hperm
  refine ⟨built_crowdedModel, by decide +kernel, hnodup, files, text, hfiles, htext 2 (by decide), ?_⟩
  simpa only [List.map_cons, List.map_nil, hpaths] using hperm

end Model

end XsdTypes
