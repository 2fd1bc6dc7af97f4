import XsdTypes.Model.Imports
import XsdTypes.Proofs.Model.Walk
import XsdTypes.Proofs.Sequencing
import XsdTypes.Proofs.Text.Fresh

/-!
# Imports are complete and have names of their own

Once imports have been added, a module imports every module that it depends on, and it still does so
when they have been finished. Then no two imports of a module have the same name, and none has the
name of a declaration of the module.
-/

namespace XsdTypes.Imports

/-- The module imports all modules that it depends on. -/
def Covered (m : Model) (i : ModuleId) : Prop :=
  ∀ target ∈ m.dependencies i, ∃ imported ∈ (m.moduleAt i).imports, imported.target = target

/-- In addition, it imports no others, and the names of the imports are different and those of no
declarations. -/
structure Finished (m : Model) (i : ModuleId) : Prop where
  covered : Covered m i
  needed : ∀ imported ∈ (m.moduleAt i).imports, imported.target ∈ m.dependencies i
  nodup : ((m.moduleAt i).imports.map ModuleImport.shortName).Nodup
  free : ∀ imported ∈ (m.moduleAt i).imports, imported.shortName ∉ localNames m i

variable {m m' m'' : Model} {i j : ModuleId}

/-- Only imports have changed. -/
structure Rewires (m m' : Model) : Prop extends m.SameShape m' where
  types : m'.types = m.types
  path : ∀ i, (m'.moduleAt i).path = (m.moduleAt i).path
  shortName : ∀ i, (m'.moduleAt i).shortName = (m.moduleAt i).shortName

theorem Rewires.refl (m : Model) : Rewires m m :=
  ⟨Model.SameShape.refl m, rfl, fun _ => rfl, fun _ => rfl⟩

theorem Rewires.trans (h : Rewires m m') (h' : Rewires m' m'') : Rewires m m'' where
  toSameShape := h.toSameShape.trans h'.toSameShape
  types := h'.types.trans h.types
  path i := (h'.path i).trans (h.path i)
  shortName i := (h'.shortName i).trans (h.shortName i)

theorem Rewires.localNames_eq (h : Rewires m m') (i : ModuleId) :
    localNames m' i = localNames m i := by
  simp only [localNames, h.listed, Model.typeAt, h.types]

theorem rewires_modifyModule (m : Model) (i : ModuleId) (f : Module → List ModuleImport) :
    Rewires m (m.modifyModule i fun info => { info with imports := f info }) := by
  have hat : ∀ {β : Type} (p : Module → β), (∀ info, p { info with imports := f info } = p info) →
      ∀ j, p ((m.modifyModule i fun info => { info with imports := f info }).moduleAt j) =
        p (m.moduleAt j) := by
    intro β p hp j
    rw [Model.moduleAt_modifyModule]
    split
    · exact hp _
    · rfl
  exact
    { types_size := rfl
      modules_size := Model.modifyModule_modules_size _ _ _
      id := hat Module.id fun _ => rfl
      listed := hat Module.types fun _ => rfl
      owner := fun _ => rfl
      anonymous := fun _ => rfl
      refs := fun _ => rfl
      types := rfl
      path := hat Module.path fun _ => rfl
      shortName := hat Module.shortName fun _ => rfl }

/-! ## One module after the other -/

section Folding

variable {f : Model → ModuleId → Model} {g : Model → ModuleId → List ModuleImport}

/-- Each step gives one module the imports that `g` says. These depend on no imports of others, so
that in the end all modules have the imports that `g` says of the model at the start. -/
theorem foldl_imports (hrewires : ∀ m i, Rewires m (f m i))
    (hself : ∀ m i, i < m.modules.size → ((f m i).moduleAt i).imports = g m i)
    (hother : ∀ m i j, j ≠ i → ((f m i).moduleAt j).imports = (m.moduleAt j).imports)
    (hlocal : ∀ m m' i, Rewires m m' → (m'.moduleAt i).imports = (m.moduleAt i).imports →
      g m' i = g m i)
    {is : List ModuleId} (his : is.Nodup) (m : Model) :
    Rewires m (is.foldl f m) ∧
      (∀ i ∈ is, i < m.modules.size → ((is.foldl f m).moduleAt i).imports = g m i) ∧
      ∀ i, i ∉ is → ((is.foldl f m).moduleAt i).imports = (m.moduleAt i).imports := by
  induction is generalizing m with
  | nil => exact ⟨Rewires.refl m, fun i hi => absurd hi List.not_mem_nil, fun _ _ => rfl⟩
  | cons i is ih =>
    obtain ⟨hnotin, hnodup⟩ := List.nodup_cons.mp his
    obtain ⟨hrest, hdone, hkept⟩ := ih hnodup (f m i)
    have hfirst := hrewires m i
    rw [List.foldl_cons]
    refine ⟨hfirst.trans hrest, fun j hj hlt => ?_, fun j hj => ?_⟩
    · rcases List.mem_cons.mp hj with rfl | hmem
      · rw [hkept j hnotin, hself m j hlt]
      · have hji : j ≠ i := fun heq => hnotin (heq ▸ hmem)
        rw [hdone j hmem (hfirst.modules_size.symm ▸ hlt)]
        exact hlocal m (f m i) j hfirst (hother m i j hji)
    · rw [List.mem_cons, not_or] at hj
      rw [hkept j hj.2, hother m i j hj.1]

end Folding

/-! ## Adding imports -/

/-- The imports of a module with those that were missing. -/
def whenAdded (m : Model) (i : ModuleId) : List ModuleImport :=
  (m.moduleAt i).imports ++ (missing m i).map fun target => ⟨target, (m.moduleAt target).shortName⟩

theorem addTo_rewires (m : Model) (i : ModuleId) : Rewires m (addTo m i) :=
  rewires_modifyModule m i _

theorem imports_addTo (hi : i < m.modules.size) :
    ((addTo m i).moduleAt i).imports = whenAdded m i := by
  unfold addTo
  rw [Model.moduleAt_modifyModule, if_pos ⟨rfl, hi⟩]
  rfl

theorem imports_addTo_of_ne (hij : j ≠ i) :
    ((addTo m i).moduleAt j).imports = (m.moduleAt j).imports := by
  unfold addTo
  rw [Model.moduleAt_modifyModule, if_neg fun h => hij h.1]

theorem whenAdded_congr (h : Rewires m m')
    (himports : (m'.moduleAt i).imports = (m.moduleAt i).imports) :
    whenAdded m' i = whenAdded m i := by
  simp only [whenAdded, missing, himports, h.dependencies_eq, h.shortName]

theorem foldl_addTo_fst (ids : List ModuleId) (state : Model × List (ModuleId × List ModuleId)) :
    (ids.foldl (fun (m, added) id =>
      (addTo m id, if (missing m id).isEmpty then added else added ++ [(id, missing m id)]))
      state).1 = ids.foldl addTo state.1 := by
  induction ids generalizing state with
  | nil => rfl
  | cons i ids ih => exact ih _

theorem add_fst (m : Model) : (add m).1 = m.moduleIds.foldl addTo m :=
  foldl_addTo_fst m.moduleIds (m, [])

/-- Every module gets the imports that are missing. -/
theorem imports_add (hm : m.Closed) : Rewires m (add m).1 ∧
    ∀ i, i < m.modules.size → ((add m).1.moduleAt i).imports = whenAdded m i := by
  obtain ⟨hrewires, hall, _⟩ := foldl_imports addTo_rewires (fun _ _ => imports_addTo)
    (fun _ _ _ => imports_addTo_of_ne) (fun _ _ _ => whenAdded_congr) List.nodup_range m
  rw [add_fst, Model.moduleIds_eq hm.id_eq]
  exact ⟨hrewires, fun i hi => hall i (List.mem_range.mpr hi) hi⟩

theorem exists_mem_whenAdded {target : ModuleId} (htarget : target ∈ m.dependencies i) :
    ∃ imported ∈ whenAdded m i, imported.target = target := by
  by_cases himported : target ∈ (m.moduleAt i).imports.map ModuleImport.target
  · obtain ⟨imported, hmem, heq⟩ := List.mem_map.mp himported
    exact ⟨imported, List.mem_append_left _ hmem, heq⟩
  · have hmissing : target ∈ missing m i :=
      List.mem_filter.mpr ⟨htarget, by simpa using himported⟩
    exact ⟨_, List.mem_append_right _ (List.mem_map_of_mem hmissing), rfl⟩

theorem add_covered (hm : m.Closed) :
    Rewires m (add m).1 ∧ ∀ i, i < m.modules.size → Covered (add m).1 i := by
  obtain ⟨hrewires, himports⟩ := imports_add hm
  refine ⟨hrewires, fun i hi target htarget => ?_⟩
  rw [hrewires.dependencies_eq] at htarget
  rw [himports i hi]
  exact exists_mem_whenAdded htarget

/-! ## Finishing imports -/

/-- The names of the imports of a module that are needed. -/
def aliases (m : Model) (i : ModuleId) : List String :=
  Text.freshAll "" ((needed m i).map fun imported =>
    Identifier.forDeclaration (m.moduleAt imported.target).shortName) (localNames m i)

/-- The imports of a module that are needed, in order and with fresh names. -/
def whenFinished (m : Model) (i : ModuleId) : List ModuleImport :=
  ((needed m i).zip (aliases m i)).map fun named => { named.1 with shortName := named.2 }

theorem aliases_length (m : Model) (i : ModuleId) : (aliases m i).length = (needed m i).length := by
  rw [aliases, Text.freshAll_length, List.length_map]

theorem finishModule_rewires (m : Model) (i : ModuleId) : Rewires m (finishModule m i) :=
  rewires_modifyModule m i _

theorem imports_finishModule (hi : i < m.modules.size) :
    ((finishModule m i).moduleAt i).imports = whenFinished m i := by
  unfold finishModule
  rw [Model.moduleAt_modifyModule, if_pos ⟨rfl, hi⟩]
  rfl

theorem imports_finishModule_of_ne (hij : j ≠ i) :
    ((finishModule m i).moduleAt j).imports = (m.moduleAt j).imports := by
  unfold finishModule
  rw [Model.moduleAt_modifyModule, if_neg fun h => hij h.1]

theorem needed_congr (h : Rewires m m')
    (himports : (m'.moduleAt i).imports = (m.moduleAt i).imports) : needed m' i = needed m i := by
  simp only [needed, himports, h.dependencies_eq, h.path]

theorem aliases_congr (h : Rewires m m')
    (himports : (m'.moduleAt i).imports = (m.moduleAt i).imports) : aliases m' i = aliases m i := by
  simp only [aliases, needed_congr h himports, h.shortName, h.localNames_eq]

theorem whenFinished_congr (h : Rewires m m')
    (himports : (m'.moduleAt i).imports = (m.moduleAt i).imports) :
    whenFinished m' i = whenFinished m i := by
  rw [whenFinished, needed_congr h himports, aliases_congr h himports, whenFinished]

/-- Every module gets the imports that it needs. -/
theorem imports_finish (hm : m.Closed) : Rewires m (finish m) ∧
    ∀ i, i < m.modules.size → ((finish m).moduleAt i).imports = whenFinished m i := by
  obtain ⟨hrewires, hall, _⟩ := foldl_imports finishModule_rewires (fun _ _ => imports_finishModule)
    (fun _ _ _ => imports_finishModule_of_ne) (fun _ _ _ => whenFinished_congr) List.nodup_range m
  unfold finish
  rw [Model.moduleIds_eq hm.id_eq]
  exact ⟨hrewires, fun i hi => hall i (List.mem_range.mpr hi) hi⟩

theorem map_target_whenFinished (m : Model) (i : ModuleId) :
    (whenFinished m i).map ModuleImport.target = (needed m i).map ModuleImport.target := by
  have hfst : ((needed m i).zip (aliases m i)).map Prod.fst = needed m i :=
    List.map_fst_zip (Nat.le_of_eq (aliases_length m i).symm)
  rw [whenFinished, List.map_map]
  conv_rhs => rw [← hfst, List.map_map]
  rfl

theorem map_shortName_whenFinished (m : Model) (i : ModuleId) :
    (whenFinished m i).map ModuleImport.shortName = aliases m i := by
  have hsnd : ((needed m i).zip (aliases m i)).map Prod.snd = aliases m i :=
    List.map_snd_zip (Nat.le_of_eq (aliases_length m i))
  rw [whenFinished, List.map_map]
  exact hsnd

theorem mem_needed {imported : ModuleImport} :
    imported ∈ needed m i ↔
      imported ∈ (m.moduleAt i).imports ∧ imported.target ∈ m.dependencies i := by
  unfold needed
  rw [(List.mergeSort_perm _ _).mem_iff, List.mem_filter, List.contains_iff_mem]

/-- A module that has been finished imports what it did before and still depends on. -/
theorem mem_target_whenFinished {target : ModuleId} :
    target ∈ (whenFinished m i).map ModuleImport.target ↔
      target ∈ (m.moduleAt i).imports.map ModuleImport.target ∧ target ∈ m.dependencies i := by
  rw [map_target_whenFinished]
  constructor
  · intro hmem
    obtain ⟨imported, hneeded, rfl⟩ := List.mem_map.mp hmem
    obtain ⟨himported, hdepends⟩ := mem_needed.mp hneeded
    exact ⟨List.mem_map_of_mem himported, hdepends⟩
  · rintro ⟨hmem, hdepends⟩
    obtain ⟨imported, himported, rfl⟩ := List.mem_map.mp hmem
    exact List.mem_map_of_mem (mem_needed.mpr ⟨himported, hdepends⟩)

theorem finish_finished (hm : m.Closed) (hcovered : ∀ i, i < m.modules.size → Covered m i) :
    Rewires m (finish m) ∧ ∀ i, i < m.modules.size → Finished (finish m) i := by
  obtain ⟨hrewires, himports⟩ := imports_finish hm
  refine ⟨hrewires, fun i hi => ?_⟩
  have hi' := himports i hi
  refine ⟨fun target htarget => ?_, fun imported himported => ?_, ?_, fun imported himported => ?_⟩
  · rw [hrewires.dependencies_eq] at htarget
    obtain ⟨imported, hmem, rfl⟩ := hcovered i hi target htarget
    rw [hi', ← List.mem_map]
    exact mem_target_whenFinished.mpr ⟨List.mem_map_of_mem hmem, htarget⟩
  · rw [hi'] at himported
    rw [hrewires.dependencies_eq]
    exact (mem_target_whenFinished.mp (List.mem_map_of_mem himported)).2
  · rw [hi', map_shortName_whenFinished]
    exact Text.freshAll_nodup _ _ _
  · rw [hi'] at himported
    have hmem := List.mem_map_of_mem (f := ModuleImport.shortName) himported
    rw [map_shortName_whenFinished] at hmem
    rw [hrewires.localNames_eq]
    exact Text.freshAll_notMem _ _ _ _ hmem

end XsdTypes.Imports
