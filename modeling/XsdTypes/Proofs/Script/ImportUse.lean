import XsdTypes.Proofs.Lowering.Steps
import XsdTypes.Proofs.Model.ImportLists
import XsdTypes.Proofs.Script.Rendering

/-!
# What imports are for

A module imports another one for two reasons: it refers to a declaration of that module by its name,
or it writes out a declaration without a name that belongs to that module. In the first case the
reference is written with the name of the import; in the second the import is not used in writing.
-/

namespace XsdTypes

namespace Model

variable {m : Model} {here other : ModuleId} {id target : TypeId} {name : String}

/-- A declaration that is written in a module refers to a named declaration of another. -/
def Uses (m : Model) (here other : ModuleId) : Prop :=
  ∃ id r target name, m.WrittenIn here id ∧ r ∈ (m.typeAt id).refs ∧ r.decl? = some target ∧
    (m.typeAt target).owner = other ∧ (m.typeAt target).name = some name

/-- A declaration without a name that belongs to another module is written out in a module. -/
def WritesOut (m : Model) (here other : ModuleId) : Prop :=
  ∃ id, m.WrittenIn here id ∧ (m.typeAt id).isAnonymous = true ∧ (m.typeAt id).owner = other

/-- What is written in a module refers to another for one of two reasons. -/
theorem Sound.refersTo_iff (hm : m.Sound) (hhere : here < m.modules.size) :
    m.RefersTo here other ↔ m.Uses here other ∨ m.WritesOut here other := by
  constructor
  · rintro ⟨id, r, target, hid, hr, htarget, howner⟩
    cases hname : (m.typeAt target).name with
    | some name => exact Or.inl ⟨id, r, target, name, hid, hr, htarget, howner, hname⟩
    | none =>
      have hanon : (m.typeAt target).isAnonymous = true := by
        rw [TypeDecl.isAnonymous, hname]
        rfl
      exact Or.inr ⟨target, .inline hid hr htarget hanon, hanon, howner⟩
  · rintro (⟨id, r, target, _, hid, hr, htarget, howner, _⟩ | ⟨id, hid, hanon, howner⟩)
    · exact ⟨id, r, target, hid, hr, htarget, howner⟩
    · cases hid with
      | listed hmem =>
        -- what a module lists has a name
        rw [((hm.listed here id hhere).mp hmem).2.2] at hanon
        cases hanon
      | inline hid hr htarget _ => exact ⟨_, _, id, hid, hr, htarget, howner⟩

/-- A reference to a named declaration of an imported module is written with the name of the
import. -/
theorem renderRef_imported (himports : Imports.Exact m here) {imported : ModuleImport}
    (himported : imported ∈ (m.moduleAt here).imports)
    (howner : (m.typeAt target).owner = imported.target) (hname : (m.typeAt target).name = some name)
    (inline : Script.Inline) (indent : Nat) :
    Script.renderRef inline m here indent (.decl target) =
      .ok (imported.shortName ++ "." ++ name) := by
  have hother : imported.target ≠ here :=
    ((himports.target_iff imported.target).mp (List.mem_map_of_mem himported)).1
  have hfind : ((m.moduleAt here).imports.find? fun i => i.target = imported.target) =
      some imported := by
    have hsome : ((m.moduleAt here).imports.find? fun i => i.target = imported.target).isSome :=
      List.find?_isSome.mpr ⟨imported, himported, decide_eq_true rfl⟩
    obtain ⟨found, hfound⟩ := Option.isSome_iff_exists.mp hsome
    have htarget : found.target = imported.target := by simpa using List.find?_some hfound
    rw [hfound, List.inj_on_of_nodup_map himports.once (List.mem_of_find?_eq_some hfound) himported
      htarget]
  have hlt : target < m.types.size := lt_of_named (by rw [TypeDecl.isAnonymous, hname]; rfl)
  rw [renderRef_decl inline here indent hlt, hname]
  simp only
  rw [Script.reference, howner, if_neg hother, hfind]
  rfl

end Model

namespace Compile

/-- An export imports nothing, and gives every module a path of its own. -/
theorem stable_unlinked (g : Graph) : Lowering.Stable g fun t => t.model.Unlinked where
  moduleFor t ns ht := by
    unfold Target.moduleFor
    split
    · exact ht
    · exact ht.addModule _ _
  begins _ _ ht := ht
  addType _ decl ht := ht.addType decl
  addTypeOf _ _ decl ht := ht.addType decl
  modifyType _ _ _ ht := ⟨ht.imports, ht.paths⟩

theorem buildModel_exact {g : Graph} {policy : RepeatPolicy} (h : g.Loaded policy)
    {ns : NamespaceId} (hns : ns < g.namespaces.size) (options : CompileOptions) :
    ∃ m, buildModel g ns options = .ok m ∧ m.Sound ∧
      ∀ i, i < m.modules.size → Imports.Exact m i := by
  obtain ⟨owner, t, hrun, hnext, _⟩ :=
    Lowering.exportNamespace_succeeds h options.exportOptions hns (Target.sound_empty g)
  have hsound := hnext.sound.model
  have hunlinked : t.model.Unlinked := by
    have hleaves := Lowering.exportNamespace_keeps (stable_unlinked g) options.exportOptions ns
      (t := {}) Model.unlinked_empty
    unfold Leaves at hleaves
    rw [hrun] at hleaves
    exact hleaves
  obtain ⟨hadd, -⟩ := Imports.imports_add hsound.closed
  have hchange := Imports.Reduces.change_add hsound.closed hunlinked
    (Imports.reduces_run (hadd.sound hsound).indexed options.overrides [])
  have hnamed := (Naming.run_sameShape options.overrides (hadd.sound hsound).indexed []).sound
    (hadd.sound hsound)
  obtain ⟨hfinish, -⟩ := Imports.imports_finish hchange.closed
  refine ⟨_, ?_, hfinish.sound hnamed, fun i hi => ?_⟩
  · unfold buildModel
    rw [hrun]
    rfl
  · rw [hfinish.modules_size] at hi
    exact hchange.exact hsound.closed hunlinked hi

/-- Whatever has been loaded, its namespaces can be built. In the model, a module imports exactly
those others of which it names a declaration or writes one out that has no name. What it names there
is written with the name of the import. -/
theorem buildModel_imports_used {documents : String → Except FetchFault String} {limit : Nat}
    {policy : RepeatPolicy} {url : String} {uri : Option String} {g : Graph} {entry : NamespaceId}
    (hload : Loading.load (m := Id) documents limit (Graph.initial policy) url uri = .ok (g, entry))
    {ns : NamespaceId} (hns : ns < g.namespaces.size) (options : CompileOptions) :
    ∃ m, buildModel g ns options = .ok m ∧ ∀ here, here < m.modules.size →
      (∀ other, other ∈ (m.moduleAt here).imports.map ModuleImport.target ↔
        other ≠ here ∧ (m.Uses here other ∨ m.WritesOut here other)) ∧
      ∀ imported ∈ (m.moduleAt here).imports, ∀ target name,
        (m.typeAt target).owner = imported.target → (m.typeAt target).name = some name →
        ∀ inline indent, Script.renderRef inline m here indent (.decl target) =
          .ok (imported.shortName ++ "." ++ name) := by
  obtain ⟨m, hbuild, hsound, hexact⟩ := buildModel_exact (Loading.load_loaded hload) hns options
  refine ⟨m, hbuild, fun here hhere => ⟨fun other => ?_, ?_⟩⟩
  · rw [← hsound.refersTo_iff hhere]
    exact (hexact here hhere).target_iff other
  · intro imported himported target name howner hname inline indent
    exact Model.renderRef_imported (hexact here hhere) himported howner hname inline indent

/-- Nothing that is written in the second module refers to a named declaration of the first. -/
theorem IsInlineModel.not_uses {m : Model} (hm : IsInlineModel m) : ¬ m.Uses 1 0 := by
  obtain ⟨-, hrefs₁, hrefs₂, hrefs₃⟩ := hm.refs
  have htargets : ∀ id, id = 1 ∨ id = 2 ∨ id = 3 → ∀ r ∈ (m.typeAt id).refs, ∀ target,
      r.decl? = some target → target = 1 ∨ target = 2 := by
    rintro id (rfl | rfl | rfl) r hr target htarget
    · rw [hrefs₁, List.mem_singleton] at hr
      subst hr
      exact Or.inr (Option.some.inj htarget).symm
    · rw [hrefs₂] at hr
      exact absurd hr List.not_mem_nil
    · rw [hrefs₃, List.mem_singleton] at hr
      subst hr
      exact Or.inl (Option.some.inj htarget).symm
  have hwritten : ∀ id, m.WrittenIn 1 id → id = 1 ∨ id = 2 ∨ id = 3 := by
    intro id hid
    induction hid with
    | listed hmem =>
      rw [hm.listed.2] at hmem
      exact Or.inr (by simpa using hmem)
    | inline _ hr htarget _ ih => exact (htargets _ ih _ hr _ htarget).imp_right Or.inl
  rintro ⟨id, r, target, name, hid, hr, htarget, howner, hname⟩
  rcases htargets id (hwritten id hid) r hr target htarget with rfl | rfl
  · rw [hm.names.1] at hname
    cases hname
  · rw [hm.owners.2] at howner
    cases howner

/-- A module imports another without naming any of its declarations: it writes out a declaration that
belongs there, because it was referred to from there first. -/
theorem not_every_import_used : ¬ ∀ (documents : String → Except FetchFault String) (limit : Nat)
    (policy : RepeatPolicy) (url : String) (uri : Option String) (g : Graph) (entry : NamespaceId),
    Loading.load (m := Id) documents limit (Graph.initial policy) url uri = .ok (g, entry) →
    ∀ ns, ns < g.namespaces.size → ∀ options m, buildModel g ns options = .ok m →
    ∀ here, here < m.modules.size → ∀ imported ∈ (m.moduleAt here).imports,
      m.Uses here imported.target := by
  intro hall
  obtain ⟨g, entry, m, _, hload, hentry, hbuild, _, hm⟩ := buildModel_isInlineModel
  refine hm.not_uses (hall inlineDocuments 2 .standard "a" none g entry hload entry hentry {} m hbuild
    1 ?_ ⟨0, "default_"⟩ ?_)
  · rw [hm.size]
    decide
  · rw [hm.imports.2]
    exact List.mem_singleton.mpr rfl

theorem buildModel_imports_used_example :
    ∃ g entry m, Loading.load (m := Id) inlineDocuments 2 (Graph.initial .standard) "a" none =
        .ok (g, entry) ∧ entry < g.namespaces.size ∧ buildModel g entry {} = .ok m ∧
      (m.moduleAt 0).imports = [⟨1, "b"⟩] ∧ (m.Uses 0 1 ∨ m.WritesOut 0 1) ∧
      (∀ inline indent, Script.renderRef inline m 0 indent (.decl 2) = .ok "b.T") ∧
      (m.moduleAt 1).imports = [⟨0, "default_"⟩] ∧ m.WritesOut 1 0 := by
  obtain ⟨g, entry, m, _, hload, hentry, hbuild, _, hm⟩ := buildModel_isInlineModel
  obtain ⟨m', hbuild', hall⟩ := buildModel_imports_used hload hentry {}
  cases hbuild.symm.trans hbuild'
  obtain ⟨htargets, htext⟩ := hall 0 (by rw [hm.size]; decide)
  obtain ⟨htargets', _⟩ := hall 1 (by rw [hm.size]; decide)
  refine ⟨g, entry, m, hload, hentry, hbuild, hm.imports.1, ((htargets 1).mp ?_).2, ?_, hm.imports.2,
    ((htargets' 0).mp ?_).2.resolve_left hm.not_uses⟩
  · rw [hm.imports.1]
    exact List.mem_singleton.mpr rfl
  · exact htext ⟨1, "b"⟩ (by rw [hm.imports.1]; exact List.mem_singleton.mpr rfl) 2 "T" hm.owners.2
      hm.names.2
  · rw [hm.imports.2]
    exact List.mem_singleton.mpr rfl

end Compile

end XsdTypes
