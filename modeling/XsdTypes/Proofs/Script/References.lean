import XsdTypes.Compile
import XsdTypes.Proofs.Lowering.Export
import XsdTypes.Proofs.Model.Imports
import XsdTypes.Proofs.Model.Naming

/-!
# References mean what they stand for

In a finished model, a reference to a named declaration, read in the module that it is written in,
means that declaration and no other.
-/

namespace XsdTypes

/-- The declarations that a module lists under a name. -/
def Model.typesNamed (m : Model) (here : ModuleId) (name : String) : List TypeId :=
  (m.moduleAt here).types.filter fun id => (m.typeAt id).name = some name

/-- The imports of a module under a name. -/
def Model.importsNamed (m : Model) (here : ModuleId) (name : String) : List ModuleImport :=
  (m.moduleAt here).imports.filter fun imported => imported.shortName = name

/-- The reference, read in a module, means one declaration and no other. The name of a module is that
of one import, and of no declaration. -/
def Reference.Means (m : Model) (here : ModuleId) (id : TypeId) : Reference → Prop
  | .bare name => m.typesNamed here name = [id]
  | .qualified qualifier name => ∃ imported, m.importsNamed here qualifier = [imported] ∧
      qualifier ∉ Imports.localNames m here ∧ imported.target = (m.typeAt id).owner ∧
      m.typesNamed imported.target name = [id]

namespace Model

variable {m : Model} {here : ModuleId} {id target : TypeId} {r : TypeRef} {name : String}

/-- Every number means something, and all names and imports are as they should be. -/
structure Finished (m : Model) : Prop extends m.Sound where
  names : ∀ i, i < m.modules.size → m.DistinctNames i
  imports : ∀ i, i < m.modules.size → Imports.Finished m i
  /-- Where a declaration belongs to, there is one with a name. -/
  inhabited : ∀ id, id < m.types.size → (m.moduleAt (m.typeAt id).owner).types ≠ []

/-- A declaration is the only one of its module with its name. -/
theorem Finished.typesNamed_eq (hm : m.Finished) (htarget : target < m.types.size)
    (hname : (m.typeAt target).name = some name) :
    m.typesNamed (m.typeAt target).owner name = [target] := by
  have howner := hm.owner_lt target htarget
  have hnamed : (m.typeAt target).isAnonymous = false := by rw [TypeDecl.isAnonymous, hname]; rfl
  have hlisted := (hm.listed _ target howner).mpr ⟨htarget, rfl, hnamed⟩
  have hfilter := filter_eq_singleton (hm.names _ howner) hlisted
  rwa [hname] at hfilter

theorem Finished.reference_means (hm : m.Finished) (hhere : here < m.modules.size)
    (hid : m.WrittenIn here id) (hr : r ∈ (m.typeAt id).refs) (htarget : r.decl? = some target)
    (hname : (m.typeAt target).name = some name) :
    ∃ reference, Script.reference m here (m.typeAt target).owner name = .ok reference ∧
      reference.Means m here target := by
  have hlt := hm.refs id (hid.lt hm.closed hhere) r hr target htarget
  have htypes := hm.typesNamed_eq hlt hname
  unfold Script.reference
  by_cases howner : (m.typeAt target).owner = here
  · rw [if_pos howner]
    exact ⟨.bare name, rfl, howner ▸ htypes⟩
  · rw [if_neg howner]
    obtain ⟨hcovered, _, hnodup, hfree⟩ := hm.imports here hhere
    obtain ⟨imported, hmem, htargeted⟩ :=
      hcovered _ (hid.mem_dependencies hm.closed hhere hr htarget howner)
    -- some import of the module is found, whichever it is
    have hsome : ((m.moduleAt here).imports.find? fun i =>
        i.target = (m.typeAt target).owner).isSome :=
      List.find?_isSome.mpr ⟨imported, hmem, decide_eq_true htargeted⟩
    obtain ⟨found, hfound⟩ := Option.isSome_iff_exists.mp hsome
    have hfoundMem := List.mem_of_find?_eq_some hfound
    have hfoundTarget : found.target = (m.typeAt target).owner := by
      simpa using List.find?_some hfound
    rw [hfound]
    refine ⟨.qualified found.shortName name, rfl, found, ?_, hfree found hfoundMem, hfoundTarget, ?_⟩
    · exact filter_eq_singleton hnodup hfoundMem
    · rw [hfoundTarget]
      exact htypes

theorem renderRef_decl (inline : Script.Inline) (here : ModuleId) (indent : Nat)
    (hlt : target < m.types.size) :
    Script.renderRef inline m here indent (.decl target) =
      match (m.typeAt target).name with
      | some name => (Script.reference m here (m.typeAt target).owner name).map Reference.text
      | none => inline indent target (m.typeAt target) := by
  rw [Script.renderRef, typeOf_eq hlt]
  cases hname : (m.typeAt target).name with
  | none =>
    simp only [Except.mapError, bind, Except.bind, hname]
  | some name =>
    simp only [Except.mapError, bind, Except.bind, hname]
    cases Script.reference m here (m.typeAt target).owner name <;> rfl

theorem Finished.renderRef_means (hm : m.Finished) (hhere : here < m.modules.size)
    (hid : m.WrittenIn here id) (hr : r ∈ (m.typeAt id).refs) (htarget : r.decl? = some target)
    (hname : (m.typeAt target).name = some name) :
    ∃ reference : Reference, reference.Means m here target ∧ ∀ inline indent,
      Script.renderRef inline m here indent (.decl target) = .ok reference.text := by
  obtain ⟨reference, href, hmeans⟩ := hm.reference_means hhere hid hr htarget hname
  have hlt := hm.refs id (hid.lt hm.closed hhere) r hr target htarget
  refine ⟨reference, hmeans, fun inline indent => ?_⟩
  rw [renderRef_decl inline here indent hlt, hname]
  simp only
  rw [href]
  rfl

end Model

namespace Compile

theorem buildModel_finished {g : Graph} {policy : RepeatPolicy} (h : g.Loaded policy)
    {ns : NamespaceId} (hns : ns < g.namespaces.size) (options : CompileOptions) :
    ∃ m, buildModel g ns options = .ok m ∧ m.Finished := by
  obtain ⟨owner, t, hrun, hnext, _⟩ :=
    Lowering.exportNamespace_succeeds h options.exportOptions hns (Target.sound_empty g)
  have hm₀ := hnext.sound.model
  obtain ⟨hadd, hcovered⟩ := Imports.add_covered hm₀.closed
  have hm₁ := hadd.sound hm₀
  have hshape := Naming.run_sameShape options.overrides hm₁.indexed []
  have hmodules := Naming.modules_run options.overrides hm₁.indexed []
  have hm₂ := hshape.sound hm₁
  have hcovered₂ : ∀ i, i < (Naming.run options.overrides ((Imports.add t.model).1, [])).1.modules.size →
      Imports.Covered (Naming.run options.overrides ((Imports.add t.model).1, [])).1 i := by
    intro i hi
    rw [hshape.modules_size, hadd.modules_size] at hi
    unfold Imports.Covered
    rw [hshape.dependencies_eq, Model.moduleAt, hmodules]
    exact hcovered i hi
  obtain ⟨hfinish, hfinished⟩ := Imports.finish_finished hm₂.closed hcovered₂
  refine ⟨Imports.finish (Naming.run options.overrides ((Imports.add t.model).1, [])).1, ?_,
    { hfinish.sound hm₂ with
      names := fun i hi => ?_
      imports := fun i hi => ?_
      inhabited := fun id hid => ?_ }⟩
  · unfold buildModel
    rw [hrun]
    rfl
  · rw [hfinish.modules_size, hshape.modules_size] at hi
    unfold Model.DistinctNames Model.typeAt
    rw [hfinish.listed, hfinish.types]
    exact Naming.run_distinct options.overrides hm₁.indexed [] hi
  · rw [hfinish.modules_size] at hi
    exact hfinished i hi
  · have hsame := hadd.toSameShape.trans (hshape.trans hfinish.toSameShape)
    rw [hsame.types_size] at hid
    rw [hsame.listed, hsame.owner]
    exact hnext.inhabited id hid

/-- Whatever has been loaded, its namespaces can be built. In the model, every reference to a named
declaration from a declaration that is written in a module is written as a text that means, in that
module, the declaration that is referred to. -/
theorem buildModel_references_mean {documents : String → Except FetchFault String} {limit : Nat}
    {policy : RepeatPolicy} {url : String} {uri : Option String} {g : Graph} {entry : NamespaceId}
    (hload : Loading.load (m := Id) documents limit (Graph.initial policy) url uri = .ok (g, entry))
    {ns : NamespaceId} (hns : ns < g.namespaces.size) (options : CompileOptions) :
    ∃ m, buildModel g ns options = .ok m ∧
      ∀ here id r target name, here < m.modules.size → m.WrittenIn here id →
        r ∈ (m.typeAt id).refs → r.decl? = some target → (m.typeAt target).name = some name →
        ∃ reference : Reference, reference.Means m here target ∧ ∀ inline indent,
          Script.renderRef inline m here indent (.decl target) = .ok reference.text := by
  obtain ⟨m, hbuild, hm⟩ := buildModel_finished (Loading.load_loaded hload) hns options
  refine ⟨m, hbuild, fun here id r target name hhere hid hr htarget hname => ?_⟩
  exact hm.renderRef_means hhere hid hr htarget hname

set_option maxRecDepth 100000 in
/-- The module of the first document lists one declaration, which refers to one of another module. -/
theorem buildModel_treeDocuments :
    ∃ g entry m, Loading.load (m := Id) Loading.treeDocuments 2 (Graph.initial .standard) "a" none =
        .ok (g, entry) ∧ entry < g.namespaces.size ∧ buildModel g entry {} = .ok m ∧
      m.modules.size = 2 ∧ (m.moduleAt 0).types = [2] ∧ (m.typeAt 2).refs = [.decl 0] ∧
      (m.typeAt 0).name = some "T" ∧ (m.typeAt 0).owner = 1 := by
  have heval : ((Loading.load (m := Id) Loading.treeDocuments 2 (Graph.initial .standard) "a"
        none).toOption.map fun r => (buildModel r.1 r.2 {}).toOption.map fun m =>
      decide (r.2 < r.1.namespaces.size ∧ m.modules.size = 2 ∧ (m.moduleAt 0).types = [2] ∧
        (m.typeAt 2).refs = [.decl 0] ∧ (m.typeAt 0).name = some "T" ∧ (m.typeAt 0).owner = 1)) =
      some (some true) :=
    Loading.load_of_letters (fun _ => .ite (.append (.ok _) _) (.append (.append (.ok _) _) _))
      (by decide +kernel)
  obtain ⟨r, hload, hbuilt⟩ := Sequencing.eq_ok_of_toOption heval
  obtain ⟨m, hbuild, hall⟩ := Sequencing.eq_ok_of_toOption hbuilt
  obtain ⟨hentry, hfacts⟩ := of_decide_eq_true hall
  exact ⟨r.1, r.2, m, hload, hentry, hbuild, hfacts⟩

theorem buildModel_references_mean_example :
    ∃ g entry m reference, Loading.load (m := Id) Loading.treeDocuments 2 (Graph.initial .standard)
        "a" none = .ok (g, entry) ∧ entry < g.namespaces.size ∧ buildModel g entry {} = .ok m ∧
      (m.typeAt 0).owner ≠ 0 ∧ Reference.Means m 0 0 reference ∧
      ∀ inline indent, Script.renderRef inline m 0 indent (.decl 0) = .ok reference.text := by
  obtain ⟨g, entry, m, hload, hentry, hbuild, hsize, htypes, hrefs, hname, howner⟩ :=
    buildModel_treeDocuments
  obtain ⟨m', hbuild', hall⟩ := buildModel_references_mean hload hentry {}
  cases hbuild.symm.trans hbuild'
  obtain ⟨reference, hmeans, htext⟩ := hall 0 2 (.decl 0) 0 "T" (by rw [hsize]; decide)
    (.listed (by rw [htypes]; exact List.mem_singleton.mpr rfl))
    (by rw [hrefs]; exact List.mem_singleton.mpr rfl) rfl hname
  exact ⟨g, entry, m, reference, hload, hentry, hbuild, by rw [howner]; decide, hmeans, htext⟩

end Compile

end XsdTypes
