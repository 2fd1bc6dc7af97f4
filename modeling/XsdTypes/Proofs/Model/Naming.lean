import XsdTypes.Model.Naming
import XsdTypes.Proofs.Model.Walk
import XsdTypes.Proofs.Text.Fresh

/-!
# Names are given by a table

Naming a model is renaming its declarations by a table of new names that can be drawn up beforehand,
because the name that a declaration gets depends on no other one being renamed. So naming changes
names only, and afterwards the declarations that a module lists have different names.
-/

namespace XsdTypes

/-- The declarations that a module lists have different names. -/
def Model.DistinctNames (m : Model) (i : ModuleId) : Prop :=
  ((m.moduleAt i).types.map fun id => (m.typeAt id).name).Nodup

/-- What a declaration says but for the identifiers: those of the declaration itself, if it has one,
and of its members. -/
def TypeDecl.withoutNames (d : TypeDecl) : TypeDecl :=
  { d with
    name := d.name.map fun _ => ""
    members := d.members.map fun member => { member with name := "" } }

namespace Naming

variable {m m' m'' : Model} {S : TypeId → Prop}

/-- Only declarations in `S` have got other names. -/
structure Renames (S : TypeId → Prop) (m m' : Model) : Prop extends m.SameShape m' where
  modules : m'.modules = m.modules
  other : ∀ id, ¬ S id → m'.typeAt id = m.typeAt id
  body : ∀ id, { m'.typeAt id with name := (m.typeAt id).name } = m.typeAt id

theorem Renames.refl (S : TypeId → Prop) (m : Model) : Renames S m m where
  toSameShape := Model.SameShape.refl m
  modules := rfl
  other _ _ := rfl
  body _ := rfl

theorem Renames.trans (h : Renames S m m') (h' : Renames S m' m'') : Renames S m m'' where
  toSameShape := h.toSameShape.trans h'.toSameShape
  modules := h'.modules.trans h.modules
  other id hid := (h'.other id hid).trans (h.other id hid)
  body id := by
    conv_rhs => rw [← h.body id, ← h'.body id]

theorem Renames.weaken {S' : TypeId → Prop} (h : Renames S m m') (hS : ∀ id, S id → S' id) :
    Renames S' m m' :=
  { h with other := fun id hid => h.other id fun hs => hid (hS id hs) }

theorem Renames.xmlName_eq (h : Renames S m m') (id : TypeId) :
    (m'.typeAt id).xmlName = (m.typeAt id).xmlName := by
  conv_rhs => rw [← h.body id]

theorem Renames.withoutNames_eq (h : Renames S m m') (id : TypeId) :
    (m'.typeAt id).withoutNames = (m.typeAt id).withoutNames := by
  have hname : (m'.typeAt id).name.map (fun _ => "") = (m.typeAt id).name.map fun _ => "" := by
    have hanon := h.anonymous id
    unfold TypeDecl.isAnonymous at hanon
    cases hname' : (m'.typeAt id).name <;> cases hname : (m.typeAt id).name <;>
      simp [hname, hname'] at hanon ⊢
  conv_rhs => rw [← h.body id]
  rw [TypeDecl.withoutNames, hname]
  rfl

/-! ## One declaration -/

theorem renameType_renames (m : Model) (rs : List Rename) (id : TypeId) (new : String) :
    Renames (· = id) m (renameType (m, rs) id new).1 := by
  simp only [renameType]
  split
  · exact Renames.refl _ m
  · rename_i old hname
    split
    · exact Renames.refl _ m
    · have hat : ∀ {β : Type} (p : TypeDecl → β),
          p { m.typeAt id with name := some new } = p (m.typeAt id) → ∀ j,
          p ((m.modifyType id fun d => { d with name := some new }).typeAt j) = p (m.typeAt j) := by
        intro β p hp j
        rw [Model.typeAt_modifyType]
        split
        · rename_i hj
          rw [hj.1]
          exact hp
        · rfl
      have hanon : (m.typeAt id).isAnonymous = false := by rw [TypeDecl.isAnonymous, hname]; rfl
      exact
        { types_size := Model.modifyType_types_size _ _ _
          modules_size := rfl
          id := fun _ => rfl
          listed := fun _ => rfl
          owner := hat TypeDecl.owner rfl
          anonymous := hat TypeDecl.isAnonymous hanon.symm
          refs := hat TypeDecl.refs rfl
          modules := rfl
          other := fun j hj => by
            rw [Model.typeAt_modifyType, if_neg fun h => hj h.1]
          body := fun j => by
            rw [Model.typeAt_modifyType]
            split <;> rfl }

theorem name_renameType (rs : List Rename) {id : TypeId} (new : String)
    (hnamed : (m.typeAt id).isAnonymous = false) :
    ((renameType (m, rs) id new).1.typeAt id).name = some new := by
  simp only [renameType]
  split
  · rename_i hname
    rw [TypeDecl.isAnonymous, hname] at hnamed
    cases hnamed
  · rename_i old hname
    split
    · rename_i hsame
      rw [hname, hsame]
    · rw [Model.typeAt_modifyType, if_pos ⟨rfl, Model.lt_of_named hnamed⟩]

/-! ## A table of names -/

/-- Gives declarations the names of a table, one after the other. -/
def renameAll (state : Model × List Rename) (entries : List (TypeId × String)) :
    Model × List Rename :=
  entries.foldl (fun state entry => renameType state entry.1 entry.2) state

theorem renameAll_renames (state : Model × List Rename) (entries : List (TypeId × String)) :
    Renames (· ∈ entries.map Prod.fst) state.1 (renameAll state entries).1 := by
  induction entries generalizing state with
  | nil => exact Renames.refl _ _
  | cons entry entries ih =>
    refine ((renameType_renames state.1 state.2 entry.1 entry.2).weaken fun id hid => ?_).trans
      ((ih (renameType state entry.1 entry.2)).weaken fun id hid => ?_)
    · exact hid ▸ List.mem_cons_self
    · exact List.mem_cons_of_mem _ hid

theorem name_renameAll {entries : List (TypeId × String)} (hnodup : (entries.map Prod.fst).Nodup)
    (state : Model × List Rename)
    (hnamed : ∀ entry ∈ entries, (state.1.typeAt entry.1).isAnonymous = false) :
    ∀ entry ∈ entries, ((renameAll state entries).1.typeAt entry.1).name = some entry.2 := by
  induction entries generalizing state with
  | nil => exact fun entry hentry => absurd hentry List.not_mem_nil
  | cons first entries ih =>
    obtain ⟨hnotin, hrest⟩ := List.nodup_cons.mp hnodup
    have hrenames := renameType_renames state.1 state.2 first.1 first.2
    intro entry hentry
    rcases List.mem_cons.mp hentry with rfl | hmem
    · -- the rest of the table leaves the first declaration alone
      have hkept := (renameAll_renames (renameType state entry.1 entry.2) entries).other _ hnotin
      refine (congrArg TypeDecl.name hkept).trans ?_
      exact name_renameType state.2 entry.2 (hnamed entry List.mem_cons_self)
    · refine ih hrest (renameType state first.1 first.2) (fun entry hentry => ?_) entry hmem
      exact (hrenames.anonymous entry.1).trans (hnamed entry (List.mem_cons_of_mem _ hentry))

/-- The names that the declarations of a list get. -/
def assigned (overrides : List (String × String)) (m : Model) (ids : List TypeId)
    (taken : List String) : List (TypeId × String) :=
  ids.zip (Text.freshAll "" (ids.map fun id => baseName overrides (m.typeAt id)) taken)

theorem map_fst_assigned (overrides : List (String × String)) (m : Model) (ids : List TypeId)
    (taken : List String) : (assigned overrides m ids taken).map Prod.fst = ids :=
  List.map_fst_zip (by simp)

theorem map_snd_assigned (overrides : List (String × String)) (m : Model) (ids : List TypeId)
    (taken : List String) : (assigned overrides m ids taken).map Prod.snd =
      Text.freshAll "" (ids.map fun id => baseName overrides (m.typeAt id)) taken :=
  List.map_snd_zip (by simp)

theorem assigned_congr (overrides : List (String × String)) {ids : List TypeId}
    (hsame : ∀ id ∈ ids, m'.typeAt id = m.typeAt id) (taken : List String) :
    assigned overrides m' ids taken = assigned overrides m ids taken := by
  have hbases : ∀ id ∈ ids, baseName overrides (m'.typeAt id) = baseName overrides (m.typeAt id) :=
    fun id hid => by rw [hsame id hid]
  rw [assigned, List.map_congr_left hbases, assigned]

theorem nameTypes_eq_renameAll (overrides : List (String × String)) {ids : List TypeId}
    (hids : ids.Nodup) (taken : List String) (state : Model × List Rename)
    (hnamed : ∀ id ∈ ids, (state.1.typeAt id).isAnonymous = false) :
    nameTypes overrides ids taken state =
      renameAll state (assigned overrides state.1 ids taken) := by
  induction ids generalizing taken state with
  | nil => rfl
  | cons id ids ih =>
    obtain ⟨hnotin, hnodup⟩ := List.nodup_cons.mp hids
    rw [nameTypes]
    simp only [hnamed id List.mem_cons_self, Bool.false_eq_true, if_false]
    set new := Text.fresh "" (baseName overrides (state.1.typeAt id)) taken with hnew
    have hrenames := renameType_renames state.1 state.2 id new
    -- the others have not been renamed yet
    have hsame : ∀ id' ∈ ids, (renameType state id new).1.typeAt id' = state.1.typeAt id' :=
      fun id' hid' => hrenames.other id' fun heq => hnotin (heq ▸ hid')
    rw [ih hnodup (new :: taken) (renameType state id new) fun id' hid' =>
      (hrenames.anonymous id').trans (hnamed id' (List.mem_cons_of_mem _ hid')),
      assigned_congr overrides hsame]
    rfl

/-! ## All modules -/

/-- The names that all declarations get, by modules. -/
def assignments (overrides : List (String × String)) (m : Model) (is : List ModuleId) :
    List (TypeId × String) :=
  is.flatMap fun i => assigned overrides m (m.moduleAt i).types []

theorem map_fst_assignments (overrides : List (String × String)) (m : Model) (is : List ModuleId) :
    (assignments overrides m is).map Prod.fst = is.flatMap fun i => (m.moduleAt i).types := by
  rw [assignments, List.map_flatMap]
  simp only [map_fst_assigned]

/-- No declaration is listed in two modules. -/
theorem nodup_flatMap_types (hm : m.Indexed) {is : List ModuleId} (his : is.Nodup)
    (hlt : ∀ i ∈ is, i < m.modules.size) : (is.flatMap fun i => (m.moduleAt i).types).Nodup := by
  refine List.nodup_flatMap.mpr ⟨fun i hi => hm.nodup i (hlt i hi), ?_⟩
  refine his.imp_of_mem fun {i j} hi hj hij id hid hid' => hij ?_
  exact ((hm.listed i id (hlt i hi)).mp hid).2.1.symm.trans
    ((hm.listed j id (hlt j hj)).mp hid').2.1

theorem foldl_nameModule_eq_renameAll (overrides : List (String × String)) (hm : m.Indexed)
    {is : List ModuleId} (his : is.Nodup) (hlt : ∀ i ∈ is, i < m.modules.size)
    (state : Model × List Rename) (hstate : Renames S m state.1)
    (hS : ∀ i ∈ is, ∀ id ∈ (m.moduleAt i).types, ¬ S id) :
    is.foldl (nameModule overrides) state = renameAll state (assignments overrides m is) := by
  induction is generalizing state S with
  | nil => rfl
  | cons i is ih =>
    have hi := hlt i List.mem_cons_self
    obtain ⟨hnotin, hnodup⟩ := List.nodup_cons.mp his
    have hsame : ∀ id ∈ (m.moduleAt i).types, state.1.typeAt id = m.typeAt id :=
      fun id hid => hstate.other id (hS i List.mem_cons_self id hid)
    have hfirst : nameModule overrides state i =
        renameAll state (assigned overrides m (m.moduleAt i).types []) := by
      rw [nameModule, hstate.listed, nameTypes_eq_renameAll overrides (hm.nodup i hi) [] state
        fun id hid => (hstate.anonymous id).trans ((hm.listed i id hi).mp hid).2.2,
        assigned_congr overrides hsame]
    have hrenames := renameAll_renames state (assigned overrides m (m.moduleAt i).types [])
    rw [map_fst_assigned] at hrenames
    rw [List.foldl_cons, hfirst, ih hnodup (fun j hj => hlt j (List.mem_cons_of_mem _ hj)) _
      ((hstate.weaken fun _ => Or.inl).trans (hrenames.weaken fun _ => Or.inr))]
    · simp only [assignments, List.flatMap_cons, renameAll, List.foldl_append]
    · rintro j hj id hid (hold | hmem)
      · exact hS j (List.mem_cons_of_mem _ hj) id hid hold
      · have hflat := nodup_flatMap_types hm his hlt
        rw [List.flatMap_cons] at hflat
        exact (List.nodup_append.mp hflat).2.2 id hmem id (List.mem_flatMap.mpr ⟨j, hj, hid⟩) rfl

/-! ## A run -/

/-- Naming the members of a declaration keeps all but their names. -/
theorem map_nameMembers {β : Type} {p : Member → β}
    (hp : ∀ member name, p { member with name } = p member) (d : TypeDecl) :
    (nameMembers d).members.map p = d.members.map p := by
  have hfst : (d.members.zip (Text.freshAll "" (d.members.map fun member =>
      Identifier.forProperty member.xmlName) [])).map Prod.fst = d.members :=
    List.map_fst_zip (by simp)
  conv_rhs => rw [← hfst, List.map_map]
  unfold nameMembers
  rw [List.map_map]
  exact List.map_congr_left fun named _ => hp named.1 named.2

theorem nameMembers_refs (d : TypeDecl) : (nameMembers d).refs = d.refs := by
  unfold TypeDecl.refs
  rw [map_nameMembers fun _ _ => rfl]
  rfl

theorem nameMembers_withoutNames (d : TypeDecl) :
    (nameMembers d).withoutNames = d.withoutNames := by
  unfold TypeDecl.withoutNames
  rw [map_nameMembers fun _ _ => rfl]
  rfl

section Run

variable (overrides : List (String × String)) (hm : m.Indexed) (rs : List Rename)

/-- The names that all declarations of a model get. -/
def tableOf (m : Model) : List (TypeId × String) :=
  assignments overrides m (List.range m.modules.size)

/-- The model with the names of the table, and the changes that were made. -/
def renamed (m : Model) : Model × List Rename :=
  renameAll (m, rs) (tableOf overrides m)

theorem renamed_renames (m : Model) : Renames (fun _ => True) m (renamed overrides rs m).1 :=
  (renameAll_renames (m, rs) _).weaken fun _ _ => trivial

include hm

/-- A run gives declarations the names of the table, and then names their members. -/
theorem run_eq : run overrides (m, rs) =
    ({ (renamed overrides rs m).1 with
        types := (renamed overrides rs m).1.types.map nameMembers },
      (renamed overrides rs m).2) := by
  simp only [run, renamed, tableOf]
  rw [Model.moduleIds_eq hm.id_eq, foldl_nameModule_eq_renameAll (S := fun _ => False) overrides hm
    List.nodup_range (fun i hi => List.mem_range.mp hi) (m, rs) (Renames.refl _ m) fun _ _ _ _ h => h]

theorem typeAt_run (id : TypeId) :
    (run overrides (m, rs)).1.typeAt id = nameMembers ((renamed overrides rs m).1.typeAt id) := by
  rw [run_eq overrides hm rs]
  exact getD_map_of_default _ rfl id

theorem modules_run : (run overrides (m, rs)).1.modules = m.modules := by
  rw [run_eq overrides hm rs]
  exact (renamed_renames overrides rs m).modules

theorem moduleAt_run (i : ModuleId) : (run overrides (m, rs)).1.moduleAt i = m.moduleAt i := by
  rw [Model.moduleAt, modules_run overrides hm rs, Model.moduleAt]

/-- Naming changes names only. -/
theorem run_sameShape : m.SameShape (run overrides (m, rs)).1 := by
  have hrenames := renamed_renames overrides rs m
  have hat := typeAt_run overrides hm rs
  refine
    { types_size := ?_
      modules_size := by rw [modules_run overrides hm rs]
      id := fun i => by rw [moduleAt_run overrides hm rs]
      listed := fun i => by rw [moduleAt_run overrides hm rs]
      owner := fun id => by rw [hat]; exact hrenames.owner id
      anonymous := fun id => by rw [hat]; exact hrenames.anonymous id
      refs := fun id => by rw [hat, nameMembers_refs]; exact hrenames.refs id }
  rw [run_eq overrides hm rs]
  exact Array.size_map.trans hrenames.types_size

theorem withoutNames_run (id : TypeId) :
    ((run overrides (m, rs)).1.typeAt id).withoutNames = (m.typeAt id).withoutNames := by
  rw [typeAt_run overrides hm rs, nameMembers_withoutNames]
  exact (renamed_renames overrides rs m).withoutNames_eq id

theorem xmlName_run (id : TypeId) :
    ((run overrides (m, rs)).1.typeAt id).xmlName = (m.typeAt id).xmlName := by
  rw [typeAt_run overrides hm rs]
  exact (renamed_renames overrides rs m).xmlName_eq id

/-! ## The names that a run gives -/

theorem nodup_tableOf : ((tableOf overrides m).map Prod.fst).Nodup := by
  rw [tableOf, map_fst_assignments]
  exact nodup_flatMap_types hm List.nodup_range fun i => List.mem_range.mp

theorem mem_map_fst_tableOf {id : TypeId} :
    id ∈ (tableOf overrides m).map Prod.fst ↔ (m.typeAt id).isAnonymous = false := by
  rw [tableOf, map_fst_assignments, List.mem_flatMap]
  constructor
  · rintro ⟨i, hi, hid⟩
    exact ((hm.listed i id (List.mem_range.mp hi)).mp hid).2.2
  · intro hnamed
    have howner := hm.owner_lt id hnamed
    exact ⟨_, List.mem_range.mpr howner,
      (hm.listed _ id howner).mpr ⟨Model.lt_of_named hnamed, rfl, hnamed⟩⟩

/-- The table says what the declarations are named in the end. -/
theorem name_run {entry : TypeId × String} (hentry : entry ∈ tableOf overrides m) :
    ((run overrides (m, rs)).1.typeAt entry.1).name = some entry.2 := by
  rw [typeAt_run overrides hm rs]
  refine name_renameAll (nodup_tableOf overrides hm) (m, rs) (fun entry hentry => ?_) entry hentry
  exact (mem_map_fst_tableOf overrides hm).mp (List.mem_map_of_mem hentry)

theorem mem_tableOf {entry : TypeId × String} : entry ∈ tableOf overrides m ↔
    (m.typeAt entry.1).isAnonymous = false ∧
      ((run overrides (m, rs)).1.typeAt entry.1).name = some entry.2 := by
  refine ⟨fun hentry => ⟨?_, name_run overrides hm rs hentry⟩, ?_⟩
  · exact (mem_map_fst_tableOf overrides hm).mp (List.mem_map_of_mem hentry)
  · rintro ⟨hnamed, hname⟩
    obtain ⟨entry', hentry', hid⟩ := List.mem_map.mp ((mem_map_fst_tableOf overrides hm).mpr hnamed)
    have hname' := name_run overrides hm rs hentry'
    rw [hid, hname] at hname'
    have heq : entry' = entry := Prod.ext hid (Option.some.inj hname'.symm)
    exact heq ▸ hentry'

/-- The names of the declarations of a module are fresh names for what they are made from. -/
theorem names_run {i : ModuleId} (hi : i < m.modules.size) :
    ((m.moduleAt i).types.map fun id => ((run overrides (m, rs)).1.typeAt id).name) =
      (Text.freshAll "" ((m.moduleAt i).types.map fun id => baseName overrides (m.typeAt id))
        []).map some := by
  conv_lhs => rw [← map_fst_assigned overrides m (m.moduleAt i).types []]
  rw [← map_snd_assigned, List.map_map, List.map_map]
  refine List.map_congr_left fun entry hentry => name_run overrides hm rs ?_
  exact List.mem_flatMap.mpr ⟨i, List.mem_range.mpr hi, hentry⟩

theorem getD_names_run {i : ModuleId} (hi : i < m.modules.size) :
    ((m.moduleAt i).types.map fun id => ((run overrides (m, rs)).1.typeAt id).name.getD "") =
      Text.freshAll "" ((m.moduleAt i).types.map fun id => baseName overrides (m.typeAt id)) [] := by
  have hget := congrArg (List.map fun name : Option String => name.getD "")
    (names_run overrides hm rs hi)
  rw [List.map_map, List.map_map] at hget
  exact hget.trans (List.map_id'' (fun _ => rfl) _)

/-- The declarations of a module have different names. -/
theorem run_distinct {i : ModuleId} (hi : i < m.modules.size) :
    (run overrides (m, rs)).1.DistinctNames i := by
  unfold Model.DistinctNames
  rw [moduleAt_run overrides hm rs, names_run overrides hm rs hi]
  exact (Text.freshAll_nodup _ _ _).map (Option.some_injective _)

end Run

end Naming

end XsdTypes
