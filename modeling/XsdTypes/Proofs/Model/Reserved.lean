import XsdTypes.Proofs.Model.Imports
import XsdTypes.Proofs.Model.Naming
import XsdTypes.Script.Render

/-!
# Words that name no declaration

A declaration and an import never have a reserved word for their names, whatever the schema and the
overrides say. The words for types that are built in are another matter: some of them are reserved,
and a module that has one of the others for a name hides the type that is built in.
-/

namespace XsdTypes

/-- The words for types that are built in, as they stand in the text of a module. -/
def Script.builtinWords : List String :=
  [Primitive.string, .number, .boolean, .date, .any].map Primitive.keyword ++ ["Array", "never"]

namespace Identifier

theorem endsInLetter_of_mem_reserved : ∀ word ∈ reserved, Text.EndsInLetter word := by
  decide +kernel

theorem forDeclaration_notMem_reserved (name : String) : forDeclaration name ∉ reserved := by
  unfold forDeclaration
  split
  · rename_i hvalid
    simp only [isValid, Bool.and_eq_true, Bool.not_eq_true', List.contains_eq_mem,
      decide_eq_false_iff_not] at hvalid
    exact hvalid.2
  · extract_lets stripped
    split
    · intro hmem
      have hletter := endsInLetter_of_mem_reserved _ hmem
      simp [Text.EndsInLetter] at hletter
    · rename_i hfree
      simpa using hfree

theorem fresh_notMem_reserved (name : String) (taken : List String) :
    Text.fresh "" (forDeclaration name) taken ∉ reserved := by
  intro hmem
  have hbase := (Text.fresh_eq_iff (endsInLetter_of_mem_reserved _ hmem) _ taken).mp rfl
  rw [← hbase.1] at hmem
  exact forDeclaration_notMem_reserved name hmem

end Identifier

/-! ## Declarations -/

/-- The declaration does not have a reserved word for its name. -/
def Model.Unreserved (m : Model) (id : TypeId) : Prop :=
  ∀ name, (m.typeAt id).name = some name → name ∉ Identifier.reserved

namespace Naming

variable {m : Model} {overrides : List (String × String)}

theorem unreserved_renameType (rs : List Rename) {id : TypeId} {new : String}
    (hnamed : (m.typeAt id).isAnonymous = false) (hnew : new ∉ Identifier.reserved) (id' : TypeId)
    (hid' : id' = id ∨ m.Unreserved id') : (renameType (m, rs) id new).1.Unreserved id' := by
  by_cases heq : id' = id
  · intro name hname
    rw [heq, name_renameType rs new hnamed] at hname
    cases hname
    exact hnew
  · unfold Model.Unreserved
    rw [(renameType_renames m rs id new).other id' heq]
    exact hid'.resolve_left heq

/-- What is named, and what had no reserved word for its name before, has none afterwards. -/
theorem nameTypes_unreserved (overrides : List (String × String)) (ids : List TypeId)
    (taken : List String) (state : Model × List Rename) :
    (nameTypes overrides ids taken state).1.modules = state.1.modules ∧
      ∀ id, id ∈ ids ∨ state.1.Unreserved id →
        (nameTypes overrides ids taken state).1.Unreserved id := by
  induction ids generalizing taken state with
  | nil => exact ⟨rfl, fun id hid => hid.resolve_left List.not_mem_nil⟩
  | cons id ids ih =>
    obtain ⟨m, rs⟩ := state
    rw [nameTypes]
    cases hanon : (m.typeAt id).isAnonymous with
    | true =>
      simp only [if_true]
      obtain ⟨hmodules, hall⟩ := ih taken (m, rs)
      refine ⟨hmodules, fun id' hid' => hall id' ?_⟩
      have hself : m.Unreserved id := by
        intro name hname
        rw [TypeDecl.isAnonymous, hname] at hanon
        cases hanon
      rcases hid' with hmem | hold
      · rcases List.mem_cons.mp hmem with rfl | hrest
        · exact Or.inr hself
        · exact Or.inl hrest
      · exact Or.inr hold
    | false =>
      simp only [Bool.false_eq_true, if_false]
      set new := Text.fresh "" (baseName overrides (m.typeAt id)) taken
      have hnew : new ∉ Identifier.reserved := Identifier.fresh_notMem_reserved _ taken
      obtain ⟨hmodules, hall⟩ := ih (new :: taken) (renameType (m, rs) id new)
      refine ⟨hmodules.trans (renameType_renames m rs id new).modules, fun id' hid' => hall id' ?_⟩
      have hkept := unreserved_renameType rs hanon hnew id'
      rcases hid' with hmem | hold
      · rcases List.mem_cons.mp hmem with hself | hrest
        · exact Or.inr (hkept (Or.inl hself))
        · exact Or.inl hrest
      · exact Or.inr (hkept (Or.inr hold))

theorem run_unreserved (overrides : List (String × String)) (m : Model) (rs : List Rename) :
    (run overrides (m, rs)).1.modules = m.modules ∧ ∀ i ∈ m.moduleIds,
      ∀ id ∈ (m.moduleAt i).types, (run overrides (m, rs)).1.Unreserved id := by
  have hstep : ∀ state : Model × List Rename, state.1.modules = m.modules → ∀ i ∈ m.moduleIds,
      (nameModule overrides state i).1.modules = m.modules ∧
        ∀ j, (j = i ∨ ∀ id ∈ (m.moduleAt j).types, state.1.Unreserved id) →
          ∀ id ∈ (m.moduleAt j).types, (nameModule overrides state i).1.Unreserved id := by
    intro state hmodules i _
    have hlisted : (state.1.moduleAt i).types = (m.moduleAt i).types := by
      rw [Model.moduleAt, hmodules, Model.moduleAt]
    obtain ⟨hkept, hall⟩ := nameTypes_unreserved overrides (state.1.moduleAt i).types [] state
    refine ⟨hkept.trans hmodules, fun j hj id hid => hall id ?_⟩
    rcases hj with rfl | hdone
    · rw [hlisted]
      exact Or.inl hid
    · exact Or.inr (hdone id hid)
  obtain ⟨hmodules, hall⟩ := Sequencing.foldl_establishes (b := (m, rs)) hstep rfl
  simp only [run]
  rcases hfold : m.moduleIds.foldl (nameModule overrides) (m, rs) with ⟨m₁, rs₁⟩
  rw [hfold] at hmodules hall
  refine ⟨hmodules, fun i hi id hid name hname => hall i hi id hid name ?_⟩
  rw [← hname]
  exact (getD_map m₁.types (p := TypeDecl.name) (f := nameMembers) (fun _ => rfl) id).symm

theorem localNames_run (hm : m.Indexed) (overrides : List (String × String)) (rs : List Rename)
    {i : ModuleId} (hi : i < m.modules.size) :
    Imports.localNames (run overrides (m, rs)).1 i =
      Text.freshAll "" ((m.moduleAt i).types.map fun id => baseName overrides (m.typeAt id)) [] := by
  unfold Imports.localNames
  rw [moduleAt_run overrides hm rs]
  have hfilter := congrArg (List.filterMap id) (names_run overrides hm rs hi)
  rw [List.filterMap_map, List.filterMap_map] at hfilter
  simpa using hfilter

end Naming

/-! ## Imports -/

namespace Imports

variable {m : Model} {i : ModuleId} {word : String}

theorem finish_rewires (m : Model) : Rewires m (finish m) :=
  List.foldlRecOn m.moduleIds finishModule (Rewires.refl m)
    fun m' h i _ => h.trans (finishModule_rewires m' i)

theorem shortName_finishModule (m : Model) (i j : ModuleId) :
    ((finishModule m i).moduleAt j).shortName = (m.moduleAt j).shortName := by
  unfold finishModule
  rw [Model.moduleAt_modifyModule]
  split <;> rfl

/-- A word that ends in a letter is the name of an import if it is the name of the module that is
imported, and of no declaration. -/
def NamesImport (m₀ m : Model) (i : ModuleId) (word : String) : Prop :=
  word ∈ (m.moduleAt i).imports.map ModuleImport.shortName ↔ word ∉ localNames m i ∧
    ∃ imported ∈ (m.moduleAt i).imports,
      Identifier.forDeclaration (m₀.moduleAt imported.target).shortName = word

theorem namesImport_finishModule (m : Model) (i : ModuleId) (hword : Text.EndsInLetter word) :
    NamesImport m (finishModule m i) i word := by
  unfold NamesImport
  by_cases hi : i < m.modules.size
  · have htargets := map_target_whenFinished m i
    have hnames := map_shortName_whenFinished m i
    rw [← imports_finishModule hi] at htargets hnames
    rw [hnames, aliases, Text.mem_freshAll_iff hword, (finishModule_rewires m i).localNames_eq,
      and_comm]
    have hbases : (needed m i).map (fun imported =>
          Identifier.forDeclaration (m.moduleAt imported.target).shortName) =
        ((finishModule m i).moduleAt i).imports.map fun imported =>
          Identifier.forDeclaration (m.moduleAt imported.target).shortName := by
      have hmap := congrArg (List.map fun target =>
        Identifier.forDeclaration (m.moduleAt target).shortName) htargets.symm
      rw [List.map_map, List.map_map] at hmap
      exact hmap
    rw [hbases, List.mem_map]
  · have hsize : ((finishModule m i).moduleAt i).imports = [] := by
      have hge : (finishModule m i).modules.size ≤ i := by
        rw [(finishModule_rewires m i).modules_size]
        exact Nat.le_of_not_lt hi
      rw [Model.moduleAt, getD_of_size_le _ hge]
      rfl
    simp [hsize]

theorem finish_namesImport (m : Model) (hi : i ∈ m.moduleIds) (hword : Text.EndsInLetter word) :
    NamesImport m (finish m) i word := by
  have hstep : ∀ m₁, (Rewires m m₁ ∧ ∀ j, (m₁.moduleAt j).shortName = (m.moduleAt j).shortName) →
      ∀ i ∈ m.moduleIds,
        (Rewires m (finishModule m₁ i) ∧
          ∀ j, ((finishModule m₁ i).moduleAt j).shortName = (m.moduleAt j).shortName) ∧
        ∀ j, j = i ∨ NamesImport m m₁ j word → NamesImport m (finishModule m₁ i) j word := by
    rintro m₁ ⟨hrewires, hshort⟩ i _
    have hrewires' := finishModule_rewires m₁ i
    refine ⟨⟨hrewires.trans hrewires', fun j => ?_⟩, fun j hj => ?_⟩
    · rw [shortName_finishModule, hshort]
    · by_cases hij : j = i
      · have hself := namesImport_finishModule m₁ i hword
        unfold NamesImport at hself ⊢
        simp only [hshort] at hself
        rw [hij]
        exact hself
      · have hsame : ((finishModule m₁ i).moduleAt j).imports = (m₁.moduleAt j).imports := by
          unfold finishModule
          rw [Model.moduleAt_modifyModule, if_neg fun h => hij h.1]
        unfold NamesImport
        rw [hsame, hrewires'.localNames_eq]
        exact hj.resolve_left hij
  obtain ⟨_, hall⟩ := Sequencing.foldl_establishes hstep ⟨Rewires.refl m, fun _ => rfl⟩
  exact hall i hi

theorem finish_run_namesImport (overrides : List (String × String)) (m : Model) (rs : List Rename)
    (hi : i ∈ m.moduleIds) (hword : Text.EndsInLetter word) :
    NamesImport m (finish (Naming.run overrides (m, rs)).1) i word := by
  obtain ⟨hmodules, _⟩ := Naming.run_unreserved overrides m rs
  have hids : (Naming.run overrides (m, rs)).1.moduleIds = m.moduleIds := by
    rw [Model.moduleIds, hmodules, Model.moduleIds]
  have hat : ∀ j, (Naming.run overrides (m, rs)).1.moduleAt j = m.moduleAt j := by
    intro j
    rw [Model.moduleAt, hmodules, Model.moduleAt]
  have hnames := finish_namesImport _ (hids ▸ hi) hword
  unfold NamesImport at hnames ⊢
  simp only [hat] at hnames
  exact hnames

theorem localNames_finish_run (overrides : List (String × String)) (m : Model) (rs : List Rename)
    (i : ModuleId) : localNames (finish (Naming.run overrides (m, rs)).1) i =
      localNames (Naming.run overrides (m, rs)).1 i :=
  (finish_rewires _).localNames_eq i

/-- No declaration and no import has a reserved word for its name. -/
theorem finish_run_unreserved (overrides : List (String × String)) (m : Model) (rs : List Rename)
    (hi : i ∈ m.moduleIds)
    (hname : word ∈ localNames (finish (Naming.run overrides (m, rs)).1) i ∨
      word ∈ ((finish (Naming.run overrides (m, rs)).1).moduleAt i).imports.map
        ModuleImport.shortName) : word ∉ Identifier.reserved := by
  obtain ⟨hmodules, hunreserved⟩ := Naming.run_unreserved overrides m rs
  rcases hname with hdeclared | himported
  · rw [localNames_finish_run, localNames, Model.moduleAt, hmodules] at hdeclared
    obtain ⟨id, hid, hname⟩ := List.mem_filterMap.mp hdeclared
    exact hunreserved i hi id hid word hname
  · intro hreserved
    have hends := Identifier.endsInLetter_of_mem_reserved word hreserved
    obtain ⟨_, imported, _, rfl⟩ :=
      (finish_run_namesImport overrides m rs hi hends).mp himported
    exact Identifier.forDeclaration_notMem_reserved _ hreserved

/-! ## What is built in -/

/-- No declaration and no import has a reserved word for its name. So of the words for types that are
built in, only `Date`, `Array` and `never` can be the name of one. An import has such a name exactly
if the module that it imports has it, and no declaration does. In a sound model, a declaration has
it exactly if the name in the schema, or the one that replaces it, becomes that word. -/
theorem finish_spares_reserved (overrides : List (String × String)) (m : Model) (rs : List Rename) :
    let final := finish (Naming.run overrides (m, rs)).1
    (∀ i ∈ m.moduleIds, ∀ word, word ∈ localNames final i ∨
        word ∈ (final.moduleAt i).imports.map ModuleImport.shortName →
      word ∉ Identifier.reserved ∧
        (word ∈ Script.builtinWords → word ∈ ["Date", "Array", "never"])) ∧
    (∀ i ∈ m.moduleIds, ∀ word ∈ ["Date", "Array", "never"],
      word ∈ (final.moduleAt i).imports.map ModuleImport.shortName ↔
        word ∉ localNames final i ∧ ∃ imported ∈ (final.moduleAt i).imports,
          Identifier.forDeclaration (m.moduleAt imported.target).shortName = word) ∧
    (m.Sound → ∀ i, i < m.modules.size → ∀ word ∈ ["Date", "Array", "never"],
      word ∈ localNames final i ↔
        ∃ id ∈ (m.moduleAt i).types, Naming.baseName overrides (m.typeAt id) = word) := by
  intro final
  have hletter : ∀ word ∈ ["Date", "Array", "never"], Text.EndsInLetter word := by decide +kernel
  have hrest : ∀ word ∈ Script.builtinWords, word ∉ Identifier.reserved →
      word ∈ ["Date", "Array", "never"] := by decide +kernel
  refine ⟨fun i hi word hword => ?_, fun i hi word hword => ?_, fun hm i hi word hword => ?_⟩
  · have hfree := finish_run_unreserved overrides m rs hi hword
    exact ⟨hfree, fun hbuiltin => hrest word hbuiltin hfree⟩
  · exact finish_run_namesImport overrides m rs hi (hletter word hword)
  · rw [localNames_finish_run, Naming.localNames_run hm.indexed overrides rs hi,
      Text.mem_freshAll_iff (hletter word hword), List.mem_map]
    simp

/-- A module with a type `Date` that has a member of the type `Date` that is built in. -/
def dateModel : Model :=
  ((({} : Model).addModule "urn:a" "a").1.addType { TypeDecl.ofSchema 0 (some "Date") .interface with
    members := [Member.ofSchema "when" .element (.primitive .date)] }).1

theorem sound_dateModel : dateModel.Sound := by
  apply Model.Sound.addType (Model.sound_empty.addModule "urn:a" "a")
  · decide
  · intro r hr id hid
    simp only [TypeDecl.refs, TypeDecl.ofSchema, Member.ofSchema, Option.toList_none, List.map_cons,
      List.map_nil, List.nil_append, List.append_nil, List.mem_singleton] at hr
    rw [hr] at hid
    cases hid

theorem finish_spares_reserved_example : dateModel.Sound ∧
    Naming.baseName [] (dateModel.typeAt 0) = "Date" ∧
    "Date" ∈ localNames (finish (Naming.run [] (dateModel, [])).1) 0 := by
  have hbase : Naming.baseName [] (dateModel.typeAt 0) = "Date" := by decide +kernel
  refine ⟨sound_dateModel, hbase, ?_⟩
  have hdeclared := (finish_spares_reserved [] dateModel []).2.2 sound_dateModel 0 (by decide) "Date"
    (by decide)
  exact hdeclared.mpr ⟨0, by decide, hbase⟩

/-- A declaration may have the word for a type that is built in for its name. -/
theorem not_builtin_words_spared : ¬ ∀ (overrides : List (String × String)) (m : Model)
    (rs : List Rename) (i : ModuleId) (word : String), i ∈ m.moduleIds →
    word ∈ localNames (finish (Naming.run overrides (m, rs)).1) i ∨
      word ∈ ((finish (Naming.run overrides (m, rs)).1).moduleAt i).imports.map
        ModuleImport.shortName → word ∉ Script.builtinWords := by
  intro hall
  have hdeclared : "Date" ∈ localNames (finish (Naming.run [] (dateModel, [])).1) 0 := by
    decide +kernel
  exact hall [] dateModel [] 0 "Date" (by decide) (Or.inl hdeclared) (by decide)

end Imports

end XsdTypes
