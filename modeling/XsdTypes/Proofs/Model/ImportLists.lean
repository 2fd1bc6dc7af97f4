import Mathlib.Data.String.Basic
import XsdTypes.Proofs.Model.Identifiers
import XsdTypes.Proofs.Model.Imports

/-!
# Import lists are exact

Between adding imports and finishing them a model may change in any way that makes no module depend
on one it did not depend on before. Once they are finished, every module imports exactly the modules
that what is written in it refers to, in the order of their paths and under names that are free. To
add and finish imports again changes nothing.
-/

namespace XsdTypes

namespace Model

variable {m : Model} {i j : ModuleId}

theorem lt_of_mem_dependencies (h : j ∈ m.dependencies i) : j < m.modules.size :=
  List.mem_range.mp (List.mem_filter.mp h).1

/-! ## Models that are built -/

/-- The modules that declarations belong to and the declarations they refer to are in the model. -/
structure InRange (m : Model) : Prop where
  owner : ∀ id, id < m.types.size → (m.typeAt id).owner < m.modules.size
  refs : ∀ id, id < m.types.size → ∀ r ∈ (m.typeAt id).refs, r.InRange m.types.size

/-- No two modules have the same path. -/
def DistinctPaths (m : Model) : Prop :=
  ∀ i j, i < m.modules.size → j < m.modules.size →
    (m.moduleAt i).path = (m.moduleAt j).path → i = j

theorem moduleAt_of_size_le (hi : m.modules.size ≤ i) : m.moduleAt i = default :=
  getD_of_size_le m.modules hi

theorem path_mem_paths (hi : i < m.modules.size) : (m.moduleAt i).path ∈ m.paths := by
  rw [moduleAt, Array.getD_eq_getD_getElem?, Array.getElem?_eq_getElem hi]
  exact List.mem_map_of_mem (Array.getElem_mem_toList hi)

theorem moduleAt_addModule (m : Model) (uri path : String) (j : ModuleId) :
    (m.addModule uri path).1.moduleAt j =
      if j = m.modules.size then
        { id := m.modules.size, uri, path := Text.fresh "_" path m.paths,
          shortName := Text.afterLast '/' (Text.fresh "_" path m.paths) }
      else m.moduleAt j :=
  getD_push m.modules _ j

/-- No module imports another, and no two have the same path. -/
structure Unlinked (m : Model) : Prop where
  imports : ∀ i, (m.moduleAt i).imports = []
  paths : m.DistinctPaths

namespace Unlinked

theorem addModule (h : m.Unlinked) (uri path : String) : (m.addModule uri path).1.Unlinked where
  imports i := by
    rw [moduleAt_addModule]
    split
    · rfl
    · exact h.imports i
  paths := by
    have hnew : ∀ k, k < m.modules.size → (m.moduleAt k).path ≠ Text.fresh "_" path m.paths :=
      fun k hk heq => Text.fresh_notMem "_" path m.paths (heq ▸ path_mem_paths hk)
    have hold : ∀ k, k < (m.addModule uri path).1.modules.size → k ≠ m.modules.size →
        k < m.modules.size := by
      intro k hk hne
      rw [addModule_modules_size] at hk
      omega
    intro i j hi hj heq
    rw [moduleAt_addModule, moduleAt_addModule] at heq
    split at heq <;> split at heq
    · rename_i hi' hj'
      exact hi'.trans hj'.symm
    · rename_i hj'
      exact absurd heq.symm (hnew j (hold j hj hj'))
    · rename_i hi' _
      exact absurd heq (hnew i (hold i hi hi'))
    · rename_i hi' hj'
      exact h.paths i j (hold i hi hi') (hold j hj hj') heq

theorem addType (h : m.Unlinked) (decl : TypeDecl) : (m.addType decl).1.Unlinked where
  imports i := by
    rw [moduleAt_addType]
    split <;> exact h.imports i
  paths i j hi hj heq := by
    have hpath : ∀ k, ((m.addType decl).1.moduleAt k).path = (m.moduleAt k).path := by
      intro k
      rw [moduleAt_addType]
      split <;> rfl
    rw [addType_modules_size] at hi hj
    rw [hpath, hpath] at heq
    exact h.paths i j hi hj heq

end Unlinked

theorem unlinked_empty : ({} : Model).Unlinked where
  imports _ := rfl
  paths i _ hi := absurd hi (Nat.not_lt_zero i)

namespace Built

theorem closed (h : m.Built) (hrange : m.InRange) : m.Closed :=
  { h.indexed, hrange with
    owner_lt := hrange.owner
    listed_lt := fun i hi id hid => ((h.indexed.listed i id hi).mp hid).1 }

theorem unlinked (h : m.Built) : m.Unlinked := by
  induction h with
  | empty => exact unlinked_empty
  | addModule _ uri path ih => exact ih.addModule uri path
  | addType _ decl _ ih => exact ih.addType decl

end Built

theorem RefersTo.lt {other : ModuleId} (h : m.RefersTo i other) : i < m.modules.size := by
  obtain ⟨id, _, _, hid, -⟩ := h
  by_contra hge
  have hnone := moduleAt_of_size_le (Nat.le_of_not_lt hge)
  induction hid with
  | listed hmem =>
    rw [hnone] at hmem
    exact absurd hmem List.not_mem_nil
  | inline _ _ _ _ ih => exact ih

end Model

namespace Imports

variable {m m' m'' : Model} {i : ModuleId}

/-! ## Changes in between -/

/-- A model changes in any way that leaves the imports as they are and makes no module depend on
another one that it did not depend on. -/
structure Change (m m' : Model) : Prop where
  closed : m'.Closed
  paths : m'.DistinctPaths
  imports : ∀ i, i < m'.modules.size → (m'.moduleAt i).imports = (m.moduleAt i).imports
  depends : ∀ i other, other ≠ i → m'.RefersTo i other → m.RefersTo i other

/-- Names change, and there may be less in modules and in declarations, but imports are left. -/
structure Reduces (m m' : Model) : Prop extends m.Shrinks m' where
  path : ∀ i, (m'.moduleAt i).path = (m.moduleAt i).path
  imports : ∀ i, (m'.moduleAt i).imports = (m.moduleAt i).imports

namespace Reduces

theorem trans (h : Reduces m m') (h' : Reduces m' m'') : Reduces m m'' where
  toShrinks := h.toShrinks.trans h'.toShrinks
  path i := (h'.path i).trans (h.path i)
  imports i := (h'.imports i).trans (h.imports i)

/-- To rename or remove something introduces no dependency. -/
theorem change (h : Reduces m m') (hm : m.Closed) (hpaths : m.DistinctPaths) : Change m m' where
  closed := h.closed hm
  paths i j hi hj heq := by
    rw [h.modules_size] at hi hj
    rw [h.path, h.path] at heq
    exact hpaths i j hi hj heq
  imports i _ := h.imports i
  depends _ _ _ hrefers := h.refersTo hrefers

/-- In particular this can be done after imports were added. -/
theorem change_add (hm : m.Closed) (hunlinked : m.Unlinked) (h : Reduces (add m).1 m') :
    Change (add m).1 m' := by
  obtain ⟨hrewires, -⟩ := imports_add hm
  refine h.change (hrewires.closed hm) fun i j hi hj heq => ?_
  rw [hrewires.modules_size] at hi hj
  rw [hrewires.path, hrewires.path] at heq
  exact hunlinked.paths i j hi hj heq

end Reduces

theorem reduces_run (hm : m.Indexed) (overrides : List (String × String)) (rs : List Rename) :
    Reduces m (Naming.run overrides (m, rs)).1 where
  toShrinks := (Naming.run_sameShape overrides hm rs).shrinks
  path i := congrArg Module.path (Naming.moduleAt_run overrides hm rs i)
  imports i := congrArg Module.imports (Naming.moduleAt_run overrides hm rs i)

theorem reduces_modifyType (m : Model) (id : TypeId) {f : TypeDecl → TypeDecl}
    (howner : ∀ d, (f d).owner = d.owner) (hname : ∀ d, (f d).isAnonymous = d.isAnonymous)
    (hrefs : ∀ d, (f d).refs ⊆ d.refs) : Reduces m (m.modifyType id f) := by
  have hat : ∀ j, (m.modifyType id f).typeAt j = f (m.typeAt j) ∨
      (m.modifyType id f).typeAt j = m.typeAt j := by
    intro j
    rw [Model.typeAt_modifyType]
    split
    · exact Or.inl rfl
    · exact Or.inr rfl
  refine
    { types_size := Model.modifyType_types_size _ _ _
      modules_size := rfl
      id := fun _ => rfl
      path := fun _ => rfl
      imports := fun _ => rfl
      listed := fun _ => List.Subset.refl _
      owner := fun j => ?_
      anonymous := fun j hanon => ?_
      refs := fun j => ?_ }
  · rcases hat j with heq | heq <;> rw [heq]
    exact howner _
  · rcases hat j with heq | heq <;> rw [heq] at hanon
    · exact (hname _).symm.trans hanon
    · exact hanon
  · rcases hat j with heq | heq <;> rw [heq]
    · exact hrefs _
    · exact List.Subset.refl _

/-! ## Finished lists -/

/-- A module imports exactly the other modules that it depends on, each of them once, in the order
of the paths, under identifiers that are all different and are names of no declaration of it. -/
structure Exact (m : Model) (i : ModuleId) : Prop where
  target_iff : ∀ other, other ∈ (m.moduleAt i).imports.map ModuleImport.target ↔
    other ≠ i ∧ m.RefersTo i other
  once : ((m.moduleAt i).imports.map ModuleImport.target).Nodup
  ordered : ((m.moduleAt i).imports.map ModuleImport.target).Pairwise fun a b =>
    (m.moduleAt a).path < (m.moduleAt b).path
  valid : ∀ imported ∈ (m.moduleAt i).imports, Identifier.isValid imported.shortName = true
  distinct : ((m.moduleAt i).imports.map ModuleImport.shortName).Nodup
  free : ∀ imported ∈ (m.moduleAt i).imports, ∀ id ∈ (m.moduleAt i).types,
    (m.typeAt id).name ≠ some imported.shortName

/-- The module imports no other twice. -/
def Once (m : Model) (i : ModuleId) : Prop :=
  ((m.moduleAt i).imports.map ModuleImport.target).Nodup

theorem once_add (hm : m.Closed) (hunlinked : m.Unlinked) (i : ModuleId) : Once (add m).1 i := by
  obtain ⟨hrewires, himports⟩ := imports_add hm
  unfold Once
  by_cases hi : i < m.modules.size
  · have htargets : (whenAdded m i).map ModuleImport.target = missing m i := by
      rw [whenAdded, hunlinked.imports, List.nil_append, List.map_map]
      exact List.map_id _
    rw [himports i hi, htargets]
    exact (List.nodup_range.filter _).filter _
  · rw [Model.moduleAt_of_size_le (hrewires.modules_size ▸ Nat.le_of_not_lt hi)]
    exact List.nodup_nil

theorem pairwise_needed (hpaths : m.DistinctPaths) (honce : Once m i) :
    ((needed m i).map ModuleImport.target).Pairwise fun a b =>
      (m.moduleAt a).path < (m.moduleAt b).path := by
  set used := (m.moduleAt i).imports.filter fun imported =>
    (m.dependencies i).contains imported.target
  have htargets : (used.map ModuleImport.target).Nodup :=
    (List.filter_sublist.map _).nodup honce
  have hlt : ∀ target ∈ used.map ModuleImport.target, target < m.modules.size := by
    intro target htarget
    obtain ⟨imported, hmem, rfl⟩ := List.mem_map.mp htarget
    exact Model.lt_of_mem_dependencies (List.contains_iff_mem.mp (List.mem_filter.mp hmem).2)
  have hkeys : (used.map fun imported => (m.moduleAt imported.target).path).Nodup := by
    have hmapped := htargets.map_on (f := fun target => (m.moduleAt target).path)
      fun a ha b hb => hpaths a b (hlt a ha) (hlt b hb)
    rw [List.map_map] at hmapped
    exact hmapped
  exact List.pairwise_map.mpr (pairwise_lt_mergeSort (fun _ _ => decide_eq_true_iff) hkeys)

theorem finish_exact_of_covered (hm : m.Closed) (hpaths : m.DistinctPaths) (honce : Once m i)
    (hcovered : Covered m i) (hi : i < m.modules.size) : Exact (finish m) i := by
  obtain ⟨hrewires, himports⟩ := imports_finish hm
  have hlist := himports i hi
  have htargets := map_target_whenFinished m i
  have hordered := pairwise_needed hpaths honce
  rw [← hlist] at htargets
  refine
    { target_iff := fun other => ?_
      once := ?_
      ordered := ?_
      valid := fun imported himported => ?_
      distinct := ?_
      free := fun imported himported id hid hname => ?_ }
  · rw [← Model.mem_dependencies (hrewires.closed hm) (hrewires.modules_size ▸ hi),
      hrewires.dependencies_eq, hlist, mem_target_whenFinished]
    refine ⟨And.right, fun hother => ⟨?_, hother⟩⟩
    obtain ⟨imported, hmem, rfl⟩ := hcovered other hother
    exact List.mem_map_of_mem hmem
  · rw [htargets]
    exact hordered.imp fun hlt heq => absurd (heq ▸ hlt) (lt_irrefl _)
  · simp only [hrewires.path, htargets]
    exact hordered
  · have hmem := List.mem_map_of_mem (f := ModuleImport.shortName) himported
    rw [hlist, map_shortName_whenFinished] at hmem
    refine Text.forall_mem_freshAll (P := fun name => Identifier.isValid name = true)
      (fun base hbase taken => ?_) _ _ hmem
    obtain ⟨imported', _, rfl⟩ := List.mem_map.mp hbase
    exact Identifier.isValid_fresh _ taken
  · rw [hlist, map_shortName_whenFinished]
    exact Text.freshAll_nodup _ _ _
  · have hmem := List.mem_map_of_mem (f := ModuleImport.shortName) himported
    rw [hlist, map_shortName_whenFinished] at hmem
    refine Text.freshAll_notMem _ _ _ _ hmem ?_
    rw [← hrewires.localNames_eq]
    exact List.mem_filterMap.mpr ⟨id, hid, hname⟩

theorem Change.covered (hm : m.Closed) (h : Change (add m).1 m') (hi : i < m'.modules.size) :
    Covered m' i := by
  obtain ⟨hadded, hcovered⟩ := add_covered hm
  intro target htarget
  obtain ⟨hother, hrefers⟩ := Model.refersTo_of_mem_dependencies htarget
  have hbefore := h.depends i target hother hrefers
  have hlt := hbefore.lt
  rw [h.imports i hi]
  exact hcovered i (hadded.modules_size ▸ hlt) target
    ((Model.mem_dependencies (hadded.closed hm) hlt).mpr ⟨hother, hbefore⟩)

theorem Change.exact (hm : m.Closed) (hunlinked : m.Unlinked) (h : Change (add m).1 m')
    (hi : i < m'.modules.size) : Exact (finish m') i := by
  have honce : Once m' i := by
    unfold Once
    rw [h.imports i hi]
    exact once_add hm hunlinked i
  exact finish_exact_of_covered h.closed h.paths honce (h.covered hm hi) hi

/-! ## To add and finish imports again -/

theorem missing_eq_nil (h : Covered m i) : missing m i = [] := by
  refine List.filter_eq_nil_iff.mpr fun target htarget hnot => ?_
  obtain ⟨imported, hmem, rfl⟩ := h target htarget
  have hin : imported.target ∈ (m.moduleAt i).imports.map ModuleImport.target :=
    List.mem_map_of_mem hmem
  simp [hin] at hnot

theorem addTo_eq_self (h : Covered m i) : addTo m i = m := by
  unfold addTo
  rw [missing_eq_nil h]
  exact Model.modifyModule_eq_self m _ i (by rw [List.map_nil, List.append_nil])

/-- If nothing is missing, nothing is added. -/
theorem add_eq_self (hm : m.Closed) (hcovered : ∀ i, i < m.modules.size → Covered m i) :
    add m = (m, []) := by
  unfold add
  rw [Model.moduleIds_eq hm.id_eq, Sequencing.foldl_eq_self]
  · simp only [List.mergeSort_nil]
  · intro i hi
    have hall := hcovered i (List.mem_range.mp hi)
    simp only [addTo_eq_self hall, missing_eq_nil hall, List.isEmpty_nil, if_true]

theorem finishModule_eq_self (h : whenFinished m i = (m.moduleAt i).imports) :
    finishModule m i = m := by
  unfold finishModule
  refine Model.modifyModule_eq_self m _ i ?_
  unfold whenFinished aliases at h
  simp only [h]

theorem finish_eq_self (hm : m.Closed)
    (h : ∀ i, i < m.modules.size → whenFinished m i = (m.moduleAt i).imports) : finish m = m := by
  unfold finish
  rw [Model.moduleIds_eq hm.id_eq]
  exact Sequencing.foldl_eq_self fun i hi => finishModule_eq_self (h i (List.mem_range.mp hi))

theorem map_zip_shortName (l : List ModuleImport) :
    ((l.zip (l.map ModuleImport.shortName)).map fun named =>
      ({ named.1 with shortName := named.2 } : ModuleImport)) = l := by
  induction l with
  | nil => rfl
  | cons imported l ih => simp only [List.map_cons, List.zip_cons_cons, ih]

namespace Exact

theorem covered (h : Exact m i) : Covered m i := by
  intro target htarget
  rw [← List.mem_map]
  exact (h.target_iff target).mpr (Model.refersTo_of_mem_dependencies htarget)

/-- What is imported is all needed, and in order. -/
theorem needed_eq (h : Exact m i) (hm : m.Closed) (hi : i < m.modules.size) :
    needed m i = (m.moduleAt i).imports := by
  have hused : ((m.moduleAt i).imports.filter fun imported =>
      (m.dependencies i).contains imported.target) = (m.moduleAt i).imports := by
    refine List.filter_eq_self.mpr fun imported himported => List.contains_iff_mem.mpr ?_
    exact (Model.mem_dependencies hm hi).mpr
      ((h.target_iff imported.target).mp (List.mem_map_of_mem himported))
  simp only [needed, hused]
  refine List.mergeSort_of_pairwise ((List.pairwise_map.mp h.ordered).imp fun hlt => ?_)
  exact decide_eq_true (le_of_lt hlt)

end Exact

/-- Imports that have been finished have the names that they would get again. -/
theorem aliases_finish (hm : m.Closed) (hi : i < m.modules.size) (h : Exact (finish m) i) :
    aliases (finish m) i = ((finish m).moduleAt i).imports.map ModuleImport.shortName := by
  obtain ⟨hrewires, himports⟩ := imports_finish hm
  have htargets := map_target_whenFinished m i
  have hbases := congrArg (List.map fun target =>
    Identifier.forDeclaration (m.moduleAt target).shortName) htargets
  rw [List.map_map, List.map_map] at hbases
  rw [aliases, h.needed_eq (hrewires.closed hm) (hrewires.modules_size ▸ hi), himports i hi,
    map_shortName_whenFinished, hrewires.localNames_eq]
  simp only [hrewires.shortName]
  exact congrArg (fun bases => Text.freshAll "" bases (localNames m i)) hbases

theorem finish_finish (hm : m.Closed)
    (h : ∀ i, i < m.modules.size → Exact (finish m) i) : finish (finish m) = finish m := by
  obtain ⟨hrewires, -⟩ := imports_finish hm
  refine finish_eq_self (hrewires.closed hm) fun i hi => ?_
  rw [hrewires.modules_size] at hi
  rw [whenFinished, (h i hi).needed_eq (hrewires.closed hm) (hrewires.modules_size ▸ hi),
    aliases_finish hm hi (h i hi), map_zip_shortName]

/-- Whatever has changed since imports were added, as long as no module depends on more than before,
every module has exactly the imports it needs when they are finished, and to add and finish imports
again changes nothing. -/
theorem finish_exact (hm : m.Built) (hrange : m.InRange) (hchange : Change (add m).1 m') :
    (∀ i, i < m'.modules.size → Exact (finish m') i) ∧
      add (finish m') = (finish m', []) ∧ finish (add (finish m')).1 = finish m' := by
  have hexact : ∀ i, i < m'.modules.size → Exact (finish m') i :=
    fun _ hi => hchange.exact (hm.closed hrange) hm.unlinked hi
  obtain ⟨hfinished, -⟩ := imports_finish hchange.closed
  have hadd : add (finish m') = (finish m', []) :=
    add_eq_self (hfinished.closed hchange.closed) fun i hi =>
      (hexact i (hfinished.modules_size ▸ hi)).covered
  exact ⟨hexact, hadd, hadd ▸ finish_finish hchange.closed hexact⟩

/-- Three modules that refer to each other, through a declaration without a name that is a part of
itself. Two of them have the same short name, and that is the name of a declaration of the third. -/
def cyclicModel : Model :=
  let interface (owner : ModuleId) (name : Option String) (types : List TypeRef) : TypeDecl :=
    { TypeDecl.ofSchema owner name .interface with
      members := types.map fun type => .ofSchema "x" .element type }
  let m := [("urn:a", "a"), ("urn:z", "z/b"), ("urn:c", "c/b")].foldl
    (fun m (entry : String × String) => (m.addModule entry.1 entry.2).1) ({} : Model)
  [interface 0 (some "Root") [.decl 1, .decl 4], interface 0 none [.decl 1, .array (.decl 2)],
    interface 1 (some "T") [.decl 0], interface 0 (some "b") [],
    interface 2 (some "U") [.decl 2]].foldl (fun m decl => (m.addType decl).1) m

theorem built_cyclicModel : cyclicModel.Built := by
  refine .addType (.addType (.addType (.addType (.addType (.addModule (.addModule
    (.addModule .empty _ _) _ _) _ _) _ ?_) _ ?_) _ ?_) _ ?_) _ ?_
  all_goals exact fun _ => by decide

/-- The model after imports were added and declarations were named, without the members of `U`. -/
def editedModel : Model :=
  (Naming.run [] ((add cyclicModel).1, [])).1.modifyType 4 fun decl => { decl with members := [] }

theorem inRange_cyclicModel : cyclicModel.InRange := by
  have howner : ∀ id, id < 5 → (cyclicModel.typeAt id).owner < 3 := by decide +kernel
  have hrefs : ∀ id, id < 5 → ∀ r ∈ (cyclicModel.typeAt id).refs,
      r.decl?.all (fun target => decide (target < 5)) = true := by decide +kernel
  refine ⟨howner, fun id hid r hr target htarget => ?_⟩
  have hall := hrefs id hid r hr
  rw [htarget] at hall
  exact of_decide_eq_true hall

theorem change_editedModel : Change (add cyclicModel).1 editedModel := by
  have hindexed := (imports_add (built_cyclicModel.closed inRange_cyclicModel)).1.indexed
    built_cyclicModel.indexed
  refine Reduces.change_add (built_cyclicModel.closed inRange_cyclicModel) built_cyclicModel.unlinked
    ((reduces_run hindexed [] []).trans (reduces_modifyType _ 4 ?_ ?_ ?_))
  · exact fun _ => rfl
  · exact fun _ => rfl
  · intro decl r hr
    simp only [TypeDecl.refs, List.mem_append, List.map_nil, List.not_mem_nil] at hr ⊢
    tauto

theorem finish_exact_example : cyclicModel.Built ∧ cyclicModel.InRange ∧
    Change (add cyclicModel).1 editedModel ∧
    (cyclicModel.dependencies 2, editedModel.dependencies 2) = ([1], []) ∧
    (editedModel.dependencies 0, localNames editedModel 0) = ([1, 2], ["Root", "b"]) ∧
    [1, 2].map (fun i => (editedModel.moduleAt i).shortName) = ["b", "b"] ∧
    (∀ i, i < 3 → Exact (finish editedModel) i) ∧
    add (finish editedModel) = (finish editedModel, []) ∧
    finish (add (finish editedModel)).1 = finish editedModel :=
  ⟨built_cyclicModel, inRange_cyclicModel, change_editedModel, by decide +kernel, by decide +kernel,
    by decide +kernel, finish_exact built_cyclicModel inRange_cyclicModel change_editedModel⟩

end Imports

end XsdTypes
