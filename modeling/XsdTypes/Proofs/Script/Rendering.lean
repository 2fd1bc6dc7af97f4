import XsdTypes.Proofs.Script.Parts
import XsdTypes.Proofs.Script.References

/-!
# Writing finished models

All that the text of a finished model refers to is there, however deep declarations without names
stand within each other. What has no text are the declarations that lead to one without a name that
contains itself: no depth is enough to write them out. To write out any other one, the number of all
declarations is depth enough, and a greater depth changes nothing.
-/

namespace XsdTypes

/-- The type is a part of the declaration, perhaps within arrays. -/
inductive TypeDecl.Mentions (d : TypeDecl) : TypeRef → Prop
  | ref {r : TypeRef} (hr : r ∈ d.refs) : Mentions d r
  | element {r : TypeRef} (h : Mentions d (.array r)) : Mentions d r

theorem TypeDecl.Mentions.exists_ref {d : TypeDecl} {r : TypeRef} (h : d.Mentions r) :
    ∃ whole ∈ d.refs, whole.decl? = r.decl? := by
  induction h with
  | ref hr => exact ⟨_, hr, rfl⟩
  | element _ ih => exact ih

/-- A declaration that has no name is written out within one that shows it. -/
def Model.Inlines (m : Model) (id target : TypeId) : Prop :=
  ∃ r ∈ (m.typeAt id).shown, r.decl? = some target ∧ (m.typeAt target).isAnonymous = true

/-- Within the declaration stands one that would have to be written out within itself. -/
def Model.Bottomless (m : Model) (id : TypeId) : Prop :=
  ∃ a, Relation.ReflTransGen m.Inlines id a ∧ Relation.TransGen m.Inlines a a

namespace Model

open Script

variable {m : Model} {here : ModuleId} {id target : TypeId} {r : TypeRef} {indent depth : Nat}
  {text : String} {e : ExportError}

/-! ## Files -/

theorem Sound.renderModule_error (hm : m.Sound) (hhere : here < m.modules.size)
    (h : renderModule m here = .error e) :
    ∃ id ∈ (m.moduleAt here).types, renderDecl m here (m.typeAt id) = .error e := by
  unfold renderModule at h
  rw [moduleOf_eq hhere] at h
  rcases Sequencing.bind_eq_error.mp h with hmodule | ⟨info, hinfo, hrest⟩
  · cases hmodule
  · cases hinfo
    rcases Sequencing.bind_eq_error.mp hrest with hdecls | ⟨_, _, hpure⟩
    · obtain ⟨id, hid, herror⟩ := Sequencing.mapM_eq_error hdecls
      rw [typeOf_eq (WrittenIn.lt hm.closed hhere (.listed hid))] at herror
      exact ⟨id, hid, herror⟩
    · cases hpure

theorem Sound.exists_renderDecl (hm : m.Sound) (hhere : here < m.modules.size)
    (h : renderModule m here = .ok text) (hid : id ∈ (m.moduleAt here).types) :
    ∃ text', renderDecl m here (m.typeAt id) = .ok text' := by
  unfold renderModule at h
  rw [moduleOf_eq hhere] at h
  obtain ⟨info, hinfo, hrest⟩ := Sequencing.bind_eq_ok.mp h
  cases hinfo
  obtain ⟨decls, hdecls, _⟩ := Sequencing.bind_eq_ok.mp hrest
  obtain ⟨text', _, hdecl⟩ := Sequencing.exists_of_mapM_eq_ok hdecls hid
  rw [typeOf_eq (WrittenIn.lt hm.closed hhere (.listed hid))] at hdecl
  exact ⟨text', hdecl⟩

theorem Sound.renderAll_error (hm : m.Sound) (h : renderAll m = .error e) :
    ∃ i, i < m.modules.size ∧ renderModule m i = .error e := by
  obtain ⟨info, hinfo, herror⟩ := Sequencing.mapM_eq_error h
  obtain ⟨hlt, _⟩ := hm.mem_modules_iff.mp (List.mem_of_mem_filter hinfo)
  rcases Sequencing.bind_eq_error.mp herror with hmodule | ⟨_, _, hpure⟩
  · exact ⟨info.id, hlt, hmodule⟩
  · cases hpure

/-- A module that lists a declaration is written to a file. -/
theorem Sound.exists_file (hm : m.Sound) (hhere : here < m.modules.size)
    (hlists : (m.moduleAt here).types ≠ []) {files : List File} (h : renderAll m = .ok files) :
    ∃ file ∈ files, file.path = (m.moduleAt here).path ++ extension ∧
      renderModule m here = .ok file.text := by
  have hmem : m.moduleAt here ∈ m.modules.toList := by
    rw [hm.mem_modules_iff, hm.id_eq here hhere]
    exact ⟨hhere, rfl⟩
  obtain ⟨file, hfile, hok⟩ := Sequencing.exists_of_mapM_eq_ok h
    (List.mem_filter.mpr ⟨hmem, by simpa using hlists⟩)
  obtain ⟨text, htext, hpure⟩ := Sequencing.bind_eq_ok.mp hok
  cases hpure
  rw [hm.id_eq here hhere] at htext
  exact ⟨_, hfile, rfl, htext⟩

/-! ## Errors at any depth -/

/-- A type that cannot be written refers to a declaration without a name that cannot be written out
where the type stands. -/
theorem Finished.renderRef_error (hm : m.Finished) (hhere : here < m.modules.size)
    (hid : m.WrittenIn here id) (hr : (m.typeAt id).Mentions r) {inline : Inline}
    (h : renderRef inline m here indent r = .error e) :
    ∃ target, r.decl? = some target ∧ (m.typeAt target).isAnonymous = true ∧
      inline indent target (m.typeAt target) = .error e := by
  induction r with
  | primitive p => cases h
  | literal value => cases h
  | array inner ih =>
    rcases Sequencing.bind_eq_error.mp h with hinner | ⟨_, _, hpure⟩
    · exact ih hr.element hinner
    · cases hpure
  | decl target =>
    obtain ⟨whole, hwhole, hdecl⟩ := hr.exists_ref
    have hlt := hm.refs id (hid.lt hm.closed hhere) whole hwhole target hdecl
    rw [renderRef_decl inline here indent hlt] at h
    cases hname : (m.typeAt target).name with
    | none =>
      rw [hname] at h
      exact ⟨target, rfl, by rw [TypeDecl.isAnonymous, hname]; rfl, h⟩
    | some name =>
      obtain ⟨reference, href, _⟩ := hm.reference_means hhere hid hwhole hdecl hname
      rw [hname] at h
      simp only [href] at h
      cases h

theorem Inlines.writtenIn (h : m.Inlines id target) (hid : m.WrittenIn here id) :
    m.WrittenIn here target := by
  obtain ⟨r, hr, htarget, hanon⟩ := h
  exact .inline hid (TypeDecl.shown_subset_refs _ hr) htarget hanon

/-- What is written from the types that a declaration shows fails with one that it inlines. -/
theorem Finished.exists_inlines_error (hm : m.Finished) (hhere : here < m.modules.size)
    (hid : m.WrittenIn here id) {write : Inline → Except ExportError String} {inline : Inline}
    (hwrite : MadeOf m here (m.typeAt id).shown write) (h : write inline = .error e) :
    ∃ target, m.Inlines id target ∧ ∃ within, inline within target (m.typeAt target) = .error e := by
  obtain ⟨r, hr, within, herror⟩ := hwrite.exists_error h
  obtain ⟨target, htarget, hanon, hfails⟩ :=
    hm.renderRef_error hhere hid (.ref (TypeDecl.shown_subset_refs _ hr)) herror
  exact ⟨target, ⟨r, hr, htarget, hanon⟩, within, hfails⟩

/-- A declaration that cannot be written out to some depth goes deeper. -/
theorem Finished.renderInline_error (hm : m.Finished) (hhere : here < m.modules.size)
    (hid : m.WrittenIn here id) (h : renderInline m here depth indent id (m.typeAt id) = .error e) :
    ∃ last, e = .endless last := by
  induction depth generalizing id indent with
  | zero =>
    cases h
    exact ⟨id, rfl⟩
  | succ depth ih =>
    obtain ⟨target, hinlines, within, hfails⟩ :=
      hm.exists_inlines_error hhere hid (madeOf_renderBody m here indent _) h
    exact ih (hinlines.writtenIn hid) hfails

theorem Finished.renderRef_endless (hm : m.Finished) (hhere : here < m.modules.size)
    (hid : m.WrittenIn here id) (hr : (m.typeAt id).Mentions r)
    (h : renderRef (renderInline m here depth) m here indent r = .error e) :
    ∃ last, e = .endless last := by
  obtain ⟨target, htarget, hanon, hfails⟩ := hm.renderRef_error hhere hid hr h
  obtain ⟨whole, hwhole, hdecl⟩ := hr.exists_ref
  exact hm.renderInline_error hhere (.inline hid hwhole (hdecl.trans htarget) hanon) hfails

theorem Finished.renderBody_endless (hm : m.Finished) (hhere : here < m.modules.size)
    (hid : m.WrittenIn here id)
    (h : renderBody (renderInline m here depth) m here indent (m.typeAt id) = .error e) :
    ∃ last, e = .endless last := by
  have hdeeper : renderInline m here (depth + 1) indent id (m.typeAt id) = .error e := h
  exact hm.renderInline_error hhere hid hdeeper

/-! ## Declarations without end -/

theorem Inlines.bottomless (h : m.Inlines id target) (htarget : m.Bottomless target) :
    m.Bottomless id := by
  obtain ⟨a, hreach, hself⟩ := htarget
  exact ⟨a, .head h hreach, hself⟩

/-- There is always one more declaration to write out. -/
theorem Bottomless.exists_inlines (h : m.Bottomless id) :
    ∃ target, m.Inlines id target ∧ m.Bottomless target := by
  obtain ⟨a, hreach, hself⟩ := h
  rcases Relation.ReflTransGen.cases_head hreach with rfl | ⟨target, hinlines, hrest⟩
  · obtain ⟨target, hinlines, hback⟩ := Relation.TransGen.head'_iff.mp hself
    exact ⟨target, hinlines, id, hback, hself⟩
  · exact ⟨target, hinlines, a, hrest, hself⟩

/-- Where a type has a text, the declaration without a name that it refers to has been written out. -/
theorem exists_inline_ok {inline : Inline} (hlt : target < m.types.size)
    (htarget : r.decl? = some target) (hanon : (m.typeAt target).isAnonymous = true)
    (h : renderRef inline m here indent r = .ok text) :
    ∃ text', inline indent target (m.typeAt target) = .ok text' := by
  induction r generalizing text with
  | primitive p => cases htarget
  | literal value => cases htarget
  | array inner ih =>
    obtain ⟨element, helement, _⟩ := Sequencing.bind_eq_ok.mp h
    exact ih htarget helement
  | decl id =>
    obtain rfl : id = target := Option.some.inj htarget
    rw [renderRef_decl inline here indent hlt, Option.isNone_iff_eq_none.mp hanon] at h
    exact ⟨text, h⟩

/-- What is written from the types that a declaration shows has all that it inlines written out. -/
theorem Finished.exists_inlines_ok (hm : m.Finished) (hhere : here < m.modules.size)
    (hid : m.WrittenIn here id) {write : Inline → Except ExportError String} {inline : Inline}
    (hwrite : MadeOf m here (m.typeAt id).shown write) (h : write inline = .ok text)
    (hinlines : m.Inlines id target) :
    ∃ within text', inline within target (m.typeAt target) = .ok text' := by
  obtain ⟨r, hr, htarget, hanon⟩ := hinlines
  obtain ⟨within, _, hshown⟩ := hwrite.exists_ok h hr
  have hlt := hm.refs id (hid.lt hm.closed hhere) r (TypeDecl.shown_subset_refs _ hr) target htarget
  exact ⟨within, exists_inline_ok hlt htarget hanon hshown⟩

/-- Nothing can be written to any depth that shows a declaration without end. -/
theorem Finished.not_ok_of_bottomless (hm : m.Finished) (hhere : here < m.modules.size)
    (hid : m.WrittenIn here id) (h : m.Bottomless id) {write : Inline → Except ExportError String}
    (hwrite : MadeOf m here (m.typeAt id).shown write) :
    write (renderInline m here depth) ≠ .ok text := by
  intro hok
  induction depth generalizing id text write with
  | zero =>
    obtain ⟨target, hinlines, _⟩ := h.exists_inlines
    obtain ⟨within, _, hinline⟩ := hm.exists_inlines_ok hhere hid hwrite hok hinlines
    cases hinline
  | succ depth ih =>
    obtain ⟨target, hinlines, hdeep⟩ := h.exists_inlines
    obtain ⟨within, _, hinline⟩ := hm.exists_inlines_ok hhere hid hwrite hok hinlines
    exact ih (hinlines.writtenIn hid) hdeep (madeOf_renderBody m here within _) hinline

/-- With a depth that suffices to go through all declarations, only what has no end cannot be written
out. The declarations gone through are kept in `seen`. -/
theorem Finished.bottomless_of_error (hm : m.Finished) (hhere : here < m.modules.size)
    (seen : List TypeId) (hseen : ∀ a ∈ seen, Relation.TransGen m.Inlines a id)
    (hdepth : absentBelow m.types.size seen ≤ depth) (hid : m.WrittenIn here id)
    (h : renderInline m here depth indent id (m.typeAt id) = .error e) : m.Bottomless id := by
  induction depth generalizing id indent seen with
  | zero =>
    by_cases hmem : id ∈ seen
    · exact ⟨id, .refl, hseen id hmem⟩
    · have hless := absentBelow_cons_lt (hid.lt hm.closed hhere) hmem
      omega
  | succ depth ih =>
    by_cases hmem : id ∈ seen
    · exact ⟨id, .refl, hseen id hmem⟩
    · have hless := absentBelow_cons_lt (hid.lt hm.closed hhere) hmem
      obtain ⟨target, hinlines, within, hfails⟩ :=
        hm.exists_inlines_error hhere hid (madeOf_renderBody m here indent _) h
      refine hinlines.bottomless (ih (id :: seen) (fun a ha => ?_) (by omega)
        (hinlines.writtenIn hid) hfails)
      rcases List.mem_cons.mp ha with rfl | hold
      · exact .single hinlines
      · exact (hseen a hold).tail hinlines

/-! ## Which declarations have a text -/

theorem Finished.renderBody_of_bottomless (hm : m.Finished) (hhere : here < m.modules.size)
    (hid : m.WrittenIn here id) (h : m.Bottomless id) (depth : Nat) :
    ∃ last, renderBody (renderInline m here depth) m here indent (m.typeAt id) =
      .error (.endless last) := by
  cases hbody : renderBody (renderInline m here depth) m here indent (m.typeAt id) with
  | ok text =>
    exact absurd hbody (hm.not_ok_of_bottomless hhere hid h (madeOf_renderBody m here indent _))
  | error e =>
    obtain ⟨last, rfl⟩ := hm.renderBody_endless hhere hid hbody
    exact ⟨last, rfl⟩

theorem Finished.renderBody_of_not_bottomless (hm : m.Finished) (hhere : here < m.modules.size)
    (hid : m.WrittenIn here id) (h : ¬ m.Bottomless id) :
    ∃ text, ∀ depth, m.types.size ≤ depth →
      renderBody (renderInline m here depth) m here indent (m.typeAt id) = .ok text := by
  cases hbody : renderBody (renderInline m here m.types.size) m here indent (m.typeAt id) with
  | ok text =>
    refine ⟨text, fun depth hdepth => ?_⟩
    exact (madeOf_renderBody m here indent _).mono (renderInline_within hdepth) hbody
  | error e =>
    have hdeeper : renderInline m here (m.types.size + 1) indent id (m.typeAt id) = .error e := hbody
    refine absurd (hm.bottomless_of_error hhere [] (by simp) ?_ hid hdeeper) h
    exact (absentBelow_le _ _).trans (Nat.le_succ _)

/-- If not all files are written, something that is listed shows what cannot be written out. -/
theorem Finished.renderAll_error_inline (hm : m.Finished) (h : renderAll m = .error e) :
    ∃ here id target within, here < m.modules.size ∧ id ∈ (m.moduleAt here).types ∧
      m.Inlines id target ∧
        renderInline m here (m.types.size + 1) within target (m.typeAt target) = .error e := by
  obtain ⟨here, hhere, hmodule⟩ := hm.renderAll_error h
  obtain ⟨id, hid, hdecl⟩ := hm.renderModule_error hhere hmodule
  obtain ⟨write, hwrite, hrender⟩ := madeOf_renderDecl m here (m.typeAt id)
  rw [hrender] at hdecl
  obtain ⟨target, hinlines, within, hfails⟩ :=
    hm.exists_inlines_error hhere (.listed hid) hwrite hdecl
  exact ⟨here, id, target, within, hhere, hid, hinlines, hfails⟩

theorem Finished.renderAll_endless (hm : m.Finished) (h : renderAll m = .error e) :
    ∃ last, e = .endless last := by
  obtain ⟨here, id, target, within, hhere, hid, hinlines, hfails⟩ := hm.renderAll_error_inline h
  exact hm.renderInline_error hhere (hinlines.writtenIn (.listed hid)) hfails

/-- All files are written exactly if everything that is listed has an end. -/
theorem Finished.exists_renderAll_iff (hm : m.Finished) :
    (∃ files, renderAll m = .ok files) ↔
      ∀ here id, here < m.modules.size → id ∈ (m.moduleAt here).types → ¬ m.Bottomless id := by
  constructor
  · rintro ⟨files, hfiles⟩ here id hhere hid hdeep
    obtain ⟨file, _, _, hmodule⟩ := hm.exists_file hhere (List.ne_nil_of_mem hid) hfiles
    obtain ⟨text, hdecl⟩ := hm.exists_renderDecl hhere hmodule hid
    obtain ⟨write, hwrite, hrender⟩ := madeOf_renderDecl m here (m.typeAt id)
    rw [hrender] at hdecl
    exact hm.not_ok_of_bottomless hhere (.listed hid) hdeep hwrite hdecl
  · intro h
    cases hall : renderAll m with
    | ok files => exact ⟨files, rfl⟩
    | error e =>
      obtain ⟨here, id, target, within, hhere, hid, hinlines, hfails⟩ :=
        hm.renderAll_error_inline hall
      have hdeep : m.Bottomless target := hm.bottomless_of_error hhere [] (by simp)
        ((absentBelow_le _ _).trans (Nat.le_succ _)) (hinlines.writtenIn (.listed hid)) hfails
      exact absurd (hinlines.bottomless hdeep) (h here id hhere hid)

/-- A module that is imported lists a declaration. -/
theorem Finished.import_inhabited (hm : m.Finished) (hhere : here < m.modules.size)
    {imported : ModuleImport} (himported : imported ∈ (m.moduleAt here).imports) :
    imported.target < m.modules.size ∧ (m.moduleAt imported.target).types ≠ [] := by
  obtain ⟨_, id, r, target, hid, hr, htarget, howner⟩ :=
    refersTo_of_mem_dependencies ((hm.imports here hhere).needed imported himported)
  have hlt := hm.refs id (hid.lt hm.closed hhere) r hr target htarget
  rw [← howner]
  exact ⟨hm.owner_lt target hlt, hm.inhabited target hlt⟩

end Model

namespace Compile

/-- Whatever has been loaded, its namespaces can be built, and in the model all that is referred to is
there: no type and no declaration that is written in a module, however deep, lacks an import or a
declaration. What has no end cannot be written to any depth, and all else is written in the same way to
every depth from the number of declarations on. So all files are written exactly if what the modules
list has an end. A module that is imported lists declarations, and its file is among them. -/
theorem buildModel_renders {documents : String → Except FetchFault String} {limit : Nat}
    {policy : RepeatPolicy} {url : String} {uri : Option String} {g : Graph} {entry : NamespaceId}
    (hload : Loading.load (m := Id) documents limit (Graph.initial policy) url uri = .ok (g, entry))
    {ns : NamespaceId} (hns : ns < g.namespaces.size) (options : CompileOptions) :
    ∃ m, buildModel g ns options = .ok m ∧
      (∀ here id depth indent e, here < m.modules.size → m.WrittenIn here id →
        (∀ r, (m.typeAt id).Mentions r →
          Script.renderRef (Script.renderInline m here depth) m here indent r = .error e →
          ∃ last, e = .endless last) ∧
        (Script.renderBody (Script.renderInline m here depth) m here indent (m.typeAt id) = .error e →
          ∃ last, e = .endless last)) ∧
      (∀ here id indent, here < m.modules.size → m.WrittenIn here id →
        (m.Bottomless id → ∀ depth, ∃ last,
          Script.renderBody (Script.renderInline m here depth) m here indent (m.typeAt id) =
            .error (.endless last)) ∧
        (¬ m.Bottomless id → ∃ text, ∀ depth, m.types.size ≤ depth →
          Script.renderBody (Script.renderInline m here depth) m here indent (m.typeAt id) =
            .ok text)) ∧
      ((∃ files, Script.renderAll m = .ok files) ↔
        ∀ here id, here < m.modules.size → id ∈ (m.moduleAt here).types → ¬ m.Bottomless id) ∧
      (∀ e, Script.renderAll m = .error e → ∃ last, e = .endless last) ∧
      (∀ here imported, here < m.modules.size → imported ∈ (m.moduleAt here).imports →
        imported.target < m.modules.size ∧ (m.moduleAt imported.target).types ≠ [] ∧
        ∀ files, Script.renderAll m = .ok files → ∃ file ∈ files,
          file.path = (m.moduleAt imported.target).path ++ Script.extension ∧
            Script.renderModule m imported.target = .ok file.text) := by
  obtain ⟨m, hbuild, hm⟩ := buildModel_finished (Loading.load_loaded hload) hns options
  refine ⟨m, hbuild, fun here id depth indent e hhere hid => ⟨fun r hr h => ?_, fun h => ?_⟩,
    fun here id indent hhere hid => ⟨fun h depth => ?_, fun h => ?_⟩, hm.exists_renderAll_iff,
    fun e h => hm.renderAll_endless h, fun here imported hhere himported => ?_⟩
  · exact hm.renderRef_endless hhere hid hr h
  · exact hm.renderBody_endless hhere hid h
  · exact hm.renderBody_of_bottomless hhere hid h depth
  · exact hm.renderBody_of_not_bottomless hhere hid h
  · obtain ⟨htarget, hlists⟩ := hm.import_inhabited hhere himported
    exact ⟨htarget, hlists, fun files h => hm.exists_file htarget hlists h⟩

/-- The type of the element of one namespace has no name, and refers to a type of that namespace. A
type of another namespace has such elements. -/
def inlineDocuments (url : String) : Except FetchFault String :=
  if url = "a" then
    .ok ("<schema xmlns='http://www.w3.org/2001/XMLSchema' xmlns:b='b'>" ++
      "<import namespace='b' schemaLocation='b'/><complexType name='A'><sequence>" ++
      "<element ref='b:e' maxOccurs='2'/></sequence></complexType></schema>")
  else
    .ok ("<schema xmlns='http://www.w3.org/2001/XMLSchema' xmlns:b='b' targetNamespace='b'>" ++
      "<complexType name='T'/><element name='e'><complexType><sequence>" ++
      "<element name='f' type='b:T'/></sequence></complexType></element></schema>")

/-- The model of the documents: the type without a name belongs to the module that refers to it
first, and the type of whole documents of the other module refers to it too. -/
structure IsInlineModel (m : Model) : Prop where
  size : m.modules.size = 2
  listed : (m.moduleAt 0).types = [0] ∧ (m.moduleAt 1).types = [2, 3]
  refs : (m.typeAt 0).refs = [.array (.decl 1)] ∧ (m.typeAt 1).refs = [.decl 2] ∧
    (m.typeAt 2).refs = [] ∧ (m.typeAt 3).refs = [.decl 1]
  shown : (m.typeAt 0).shown = [.array (.decl 1)]
  owners : (m.typeAt 1).owner = 0 ∧ (m.typeAt 2).owner = 1
  names : (m.typeAt 1).name = none ∧ (m.typeAt 2).name = some "T"
  imports : (m.moduleAt 0).imports = [⟨1, "b"⟩] ∧ (m.moduleAt 1).imports = [⟨0, "default_"⟩]

set_option maxRecDepth 100000 in
theorem buildModel_isInlineModel :
    ∃ g entry m files, Loading.load (m := Id) inlineDocuments 2 (Graph.initial .standard) "a" none =
        .ok (g, entry) ∧ entry < g.namespaces.size ∧ buildModel g entry {} = .ok m ∧
      Script.renderAll m = .ok files ∧ IsInlineModel m := by
  have heval : ((Loading.load (m := Id) inlineDocuments 2 (Graph.initial .standard) "a"
        none).toOption.map fun r => (buildModel r.1 r.2 {}).toOption.map fun m =>
      (Script.renderAll m).toOption.map fun _ => decide (r.2 < r.1.namespaces.size ∧
        m.modules.size = 2 ∧ ((m.moduleAt 0).types = [0] ∧ (m.moduleAt 1).types = [2, 3]) ∧
        ((m.typeAt 0).refs = [.array (.decl 1)] ∧ (m.typeAt 1).refs = [.decl 2] ∧
          (m.typeAt 2).refs = [] ∧ (m.typeAt 3).refs = [.decl 1]) ∧
        (m.typeAt 0).shown = [.array (.decl 1)] ∧
        ((m.typeAt 1).owner = 0 ∧ (m.typeAt 2).owner = 1) ∧
        ((m.typeAt 1).name = none ∧ (m.typeAt 2).name = some "T") ∧
        (m.moduleAt 0).imports = [⟨1, "b"⟩] ∧ (m.moduleAt 1).imports = [⟨0, "default_"⟩])) =
      some (some (some true)) :=
    Loading.load_of_letters (fun _ => .ite (.append (.append (.ok _) _) _)
      (.append (.append (.ok _) _) _)) (by decide +kernel)
  obtain ⟨r, hload, hbuilt⟩ := Sequencing.eq_ok_of_toOption heval
  obtain ⟨m, hbuild, hrendered⟩ := Sequencing.eq_ok_of_toOption hbuilt
  obtain ⟨files, hfiles, hall⟩ := Sequencing.eq_ok_of_toOption hrendered
  obtain ⟨hentry, hsize, hlisted, hrefs, hshown, howners, hnames, himports⟩ := of_decide_eq_true hall
  exact ⟨r.1, r.2, m, files, hload, hentry, hbuild, hfiles, hsize, hlisted, hrefs, hshown, howners,
    hnames, himports⟩

/-- The type without a name is written where it is referred to from another namespace, and the module
that it refers to is written too. -/
theorem buildModel_renders_example :
    ∃ g entry m files, Loading.load (m := Id) inlineDocuments 2 (Graph.initial .standard) "a" none =
        .ok (g, entry) ∧ entry < g.namespaces.size ∧ buildModel g entry {} = .ok m ∧
      Script.renderAll m = .ok files ∧ (m.typeAt 1).isAnonymous = true ∧ m.WrittenIn 0 1 ∧
      (∃ text, ∀ depth, m.types.size ≤ depth →
        Script.renderBody (Script.renderInline m 0 depth) m 0 0 (m.typeAt 1) = .ok text) ∧
      (m.moduleAt 0).imports = [⟨1, "b"⟩] ∧
      ∃ file ∈ files, file.path = (m.moduleAt 1).path ++ Script.extension ∧
        Script.renderModule m 1 = .ok file.text := by
  obtain ⟨g, entry, m, files, hload, hentry, hbuild, hfiles, hm⟩ := buildModel_isInlineModel
  obtain ⟨m', hbuild', _, htexts, hall, _, hemitted⟩ := buildModel_renders hload hentry {}
  cases hbuild.symm.trans hbuild'
  have hhere : 0 < m.modules.size := by rw [hm.size]; decide
  have hlisted : 0 ∈ (m.moduleAt 0).types := by rw [hm.listed.1]; exact List.mem_singleton.mpr rfl
  have hanon : (m.typeAt 1).isAnonymous = true := by
    rw [TypeDecl.isAnonymous, hm.names.1]
    rfl
  have hinlines : m.Inlines 0 1 :=
    ⟨.array (.decl 1), by rw [hm.shown]; exact List.mem_singleton.mpr rfl, rfl, hanon⟩
  have hwritten : m.WrittenIn 0 1 := hinlines.writtenIn (.listed hlisted)
  -- the files are there, so what is listed has an end, and so has all that it shows
  have hends : ¬ m.Bottomless 1 := fun hdeep =>
    hall.mp ⟨files, hfiles⟩ 0 0 hhere hlisted (hinlines.bottomless hdeep)
  obtain ⟨_, _, hfile⟩ :=
    hemitted 0 ⟨1, "b"⟩ hhere (by rw [hm.imports.1]; exact List.mem_singleton.mpr rfl)
  exact ⟨g, entry, m, files, hload, hentry, hbuild, hfiles, hanon, hwritten,
    (htexts 0 1 0 hhere hwritten).2 hends, hm.imports.1, hfile files hfiles⟩

/-- The type of an element has no name and contains the element, and next to it an element of a type
of another namespace. -/
def endlessDocuments (url : String) : Except FetchFault String :=
  if url = "a" then
    .ok ("<schema xmlns='http://www.w3.org/2001/XMLSchema' xmlns:a='a' xmlns:b='b' " ++
      "targetNamespace='a'><import namespace='b' schemaLocation='b'/><element name='e'>" ++
      "<complexType><sequence><element name='u' type='b:U'/><element ref='a:e' minOccurs='0'/>" ++
      "</sequence></complexType></element></schema>")
  else
    .ok ("<schema xmlns='http://www.w3.org/2001/XMLSchema' targetNamespace='b'>" ++
      "<complexType name='U'/></schema>")

set_option maxRecDepth 100000 in
/-- The file of an imported module may not be written. -/
theorem not_every_import_written : ¬ ∀ (documents : String → Except FetchFault String) (limit : Nat)
    (policy : RepeatPolicy) (url : String) (uri : Option String) (g : Graph) (entry : NamespaceId),
    Loading.load (m := Id) documents limit (Graph.initial policy) url uri = .ok (g, entry) →
    ∀ m, buildModel g entry {} = .ok m → ∀ here imported, here < m.modules.size →
      imported ∈ (m.moduleAt here).imports → ∃ files, Script.renderAll m = .ok files ∧
        ∃ file ∈ files, file.path = (m.moduleAt imported.target).path ++ Script.extension := by
  intro hall
  have heval : ((Loading.load (m := Id) endlessDocuments 2 (Graph.initial .standard) "a"
        none).toOption.map fun r => (buildModel r.1 r.2 {}).toOption.map fun m =>
      decide (0 < m.modules.size ∧ (m.moduleAt 0).imports = [⟨1, "b"⟩] ∧
        (Script.renderAll m).toOption = none)) = some (some true) :=
    Loading.load_of_letters (fun _ => .ite (.append (.append (.append (.ok _) _) _) _)
      (.append (.ok _) _)) (by decide +kernel)
  obtain ⟨r, hload, hbuilt⟩ := Sequencing.eq_ok_of_toOption heval
  obtain ⟨m, hbuild, hm⟩ := Sequencing.eq_ok_of_toOption hbuilt
  obtain ⟨hhere, himports, hnone⟩ := of_decide_eq_true hm
  obtain ⟨files, hfiles, _⟩ := hall endlessDocuments 2 .standard "a" none r.1 r.2 hload m hbuild 0
    ⟨1, "b"⟩ hhere (by rw [himports]; exact List.mem_singleton.mpr rfl)
  rw [hfiles] at hnone
  cases hnone

end Compile

end XsdTypes
