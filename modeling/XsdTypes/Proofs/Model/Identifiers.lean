import XsdTypes.Proofs.Model.Reserved

/-!
# Names are identifiers

Whatever the names of a schema and the names given in their place are, what declarations and members
are named by has the form of an identifier, and declarations have no reserved word for their names. A
name is as close to the one it is made from as those before it allow: nothing is added to it if it is
free, and otherwise the smallest number that makes it free.
-/

namespace XsdTypes

namespace Identifier

theorem isStart_of_isPart {c : Char} (hpart : isPart c = true) (hdigit : c.isDigit = false) :
    isStart c = true := by
  have halphanum : c.isAlphanum = (c.isAlpha || c.isDigit) := rfl
  simpa [isPart, isStart, halphanum, hdigit] using hpart

theorem isPart_of_isDigit {c : Char} (hdigit : c.isDigit = true) : isPart c = true := by
  have halphanum : c.isAlphanum = (c.isAlpha || c.isDigit) := rfl
  simp [isPart, halphanum, hdigit]

theorem isWord_append {word rest : List Char} (hword : isWord word = true)
    (hrest : ∀ c ∈ rest, isPart c = true) : isWord (word ++ rest) = true := by
  cases word with
  | nil => cases hword
  | cons c cs =>
    rw [isWord, Bool.and_eq_true, List.all_eq_true] at hword
    rw [List.cons_append, isWord, Bool.and_eq_true, List.all_eq_true]
    refine ⟨hword.1, fun c' hc' => ?_⟩
    rcases List.mem_append.mp hc' with hold | hnew
    · exact hword.2 c' hold
    · exact hrest c' hnew

theorem isWord_strip (name : String) : isWord (strip name).toList = true := by
  have hparts : ∀ c ∈ name.toList.filter isPart, isPart c = true := fun c hc =>
    (List.mem_filter.mp hc).2
  unfold strip
  split
  · rfl
  · rename_i c cs hfilter
    rw [hfilter] at hparts
    have hrest : cs.all isPart = true :=
      List.all_eq_true.mpr fun c' hc' => hparts c' (List.mem_cons_of_mem _ hc')
    have hpart := hparts c List.mem_cons_self
    rw [String.toList_ofList]
    split
    · simp [isWord, isStart, hpart, hrest]
    · rename_i hdigit
      rw [isWord, isStart_of_isPart hpart (by simpa using hdigit), hrest]
      rfl

theorem isWord_forProperty (name : String) : isWord (forProperty name).toList = true := by
  unfold forProperty
  split
  · assumption
  · exact isWord_strip name

theorem isWord_forDeclaration (name : String) : isWord (forDeclaration name).toList = true := by
  unfold forDeclaration
  split
  · rename_i hvalid
    exact (Bool.and_eq_true_iff.mp hvalid).1
  · extract_lets stripped
    split
    · rw [String.toList_append]
      refine isWord_append (isWord_strip name) fun c hc => ?_
      cases List.mem_singleton.mp hc
      rfl
    · exact isWord_strip name

/-- A number may stand at the end of an identifier. -/
theorem isWord_fresh {base : String} (hbase : isWord base.toList = true) (taken : List String) :
    isWord (Text.fresh "" base taken).toList = true := by
  rcases Text.fresh_isFirstFree "" base taken with ⟨_, heq⟩ | ⟨_, n, _, heq, _⟩
  · rw [heq]
    exact hbase
  · rw [heq, Text.numbered, String.append_empty, String.toList_append,
      Nat.toString_eq_ofList_toDigits, String.toList_ofList]
    refine isWord_append hbase fun c hc => isPart_of_isDigit ?_
    exact Nat.isDigit_of_mem_toDigits (by omega) (by omega) hc

theorem isValid_iff {name : String} :
    isValid name = true ↔ isWord name.toList = true ∧ name ∉ reserved := by
  simp [isValid]

theorem isValid_fresh (name : String) (taken : List String) :
    isValid (Text.fresh "" (forDeclaration name) taken) = true :=
  isValid_iff.mpr ⟨isWord_fresh (isWord_forDeclaration name) taken, fresh_notMem_reserved name taken⟩

end Identifier

namespace Naming

variable {m : Model}

/-- The names of members are fresh names for what they are made from. -/
theorem map_name_nameMembers (d : TypeDecl) : (nameMembers d).members.map Member.name =
    Text.freshAll "" ((nameMembers d).members.map fun member =>
      Identifier.forProperty member.xmlName) [] := by
  have hsnd : (d.members.zip (Text.freshAll "" (d.members.map fun member =>
      Identifier.forProperty member.xmlName) [])).map Prod.snd = Text.freshAll ""
        (d.members.map fun member => Identifier.forProperty member.xmlName) [] :=
    List.map_snd_zip (by simp)
  have hbases : ((nameMembers d).members.map fun member => Identifier.forProperty member.xmlName) =
      d.members.map fun member => Identifier.forProperty member.xmlName :=
    map_nameMembers (fun _ _ => rfl) d
  rw [hbases, ← hsnd]
  unfold nameMembers
  rw [List.map_map]
  rfl

theorem isWord_name_nameMembers (d : TypeDecl) :
    ∀ name ∈ (nameMembers d).members.map Member.name, Identifier.isWord name.toList = true := by
  rw [map_name_nameMembers]
  refine Text.forall_mem_freshAll (fun base hbase taken => ?_) []
  obtain ⟨member, _, rfl⟩ := List.mem_map.mp hbase
  exact Identifier.isWord_fresh (Identifier.isWord_forProperty _) taken

/-- The model is another one with names as they should be, and is the same in all else. -/
structure Proper (overrides : List (String × String)) (m named : Model) : Prop where
  /-- The name of a declaration is an identifier and no reserved word. -/
  valid : ∀ id name, (named.typeAt id).name = some name → Identifier.isValid name = true
  distinct : ∀ i, i < named.modules.size → named.DistinctNames i
  /-- A declaration is named by its name in the schema, or by the name given for that, made free of
  the names of the declarations before it in its module. -/
  chosen : ∀ id, (m.typeAt id).isAnonymous = false → ∃ before after name,
    (m.moduleAt (m.typeAt id).owner).types = before ++ id :: after ∧
    (named.typeAt id).name = some name ∧
    Text.IsFirstFree "" (baseName overrides (m.typeAt id))
      (before.filterMap fun earlier => (named.typeAt earlier).name) name
  member_word : ∀ id, ∀ member ∈ (named.typeAt id).members,
    Identifier.isWord member.name.toList = true
  member_distinct : ∀ id, ((named.typeAt id).members.map Member.name).Nodup
  /-- A member is named by its name in the schema, made free of the names of the members before
  it. -/
  member_chosen : ∀ id before member after,
    (named.typeAt id).members = before ++ member :: after →
    Text.IsFirstFree "" (Identifier.forProperty member.xmlName) (before.map Member.name) member.name
  modules : named.modules = m.modules
  types : named.types.map TypeDecl.withoutNames = m.types.map TypeDecl.withoutNames

section Run

variable (overrides : List (String × String)) (hm : m.Indexed) (rs : List Rename)

include hm

/-- Each declaration gets the first form of its name that is free of those before it. -/
theorem name_run_isFirstFree {id : TypeId} (hnamed : (m.typeAt id).isAnonymous = false) :
    ∃ before after name, (m.moduleAt (m.typeAt id).owner).types = before ++ id :: after ∧
      ((run overrides (m, rs)).1.typeAt id).name = some name ∧
      Text.IsFirstFree "" (baseName overrides (m.typeAt id))
        (before.filterMap fun earlier => ((run overrides (m, rs)).1.typeAt earlier).name) name := by
  have howner := hm.owner_lt id hnamed
  have hlisted := (hm.listed _ id howner).mpr ⟨Model.lt_of_named hnamed, rfl, hnamed⟩
  obtain ⟨before, after, hsplit⟩ := List.append_of_mem hlisted
  set final := (run overrides (m, rs)).1 with hfinal
  -- all of them have names, so that nothing is lost by reading them with a default
  have hsome : ∀ id' ∈ (m.moduleAt (m.typeAt id).owner).types,
      (final.typeAt id').name = some ((final.typeAt id').name.getD "") := by
    intro id' hid'
    have hanon := (run_sameShape overrides hm rs).anonymous id'
    rw [((hm.listed _ id' howner).mp hid').2.2, TypeDecl.isAnonymous, ← hfinal] at hanon
    cases hname : (final.typeAt id').name with
    | none =>
      rw [hname] at hanon
      cases hanon
    | some name => rfl
  have hnames := getD_names_run overrides hm rs howner
  rw [hsplit] at hnames hsome
  have hbefore : before.filterMap (fun earlier => (final.typeAt earlier).name) =
      before.map fun earlier => (final.typeAt earlier).name.getD "" := by
    rw [← List.filterMap_eq_map]
    exact List.filterMap_congr fun id' hid' => hsome id' (List.mem_append_left _ hid')
  refine ⟨before, after, _, hsplit, hsome id (by simp), ?_⟩
  rw [hbefore]
  exact Text.isFirstFree_of_map_eq hnames

theorem isValid_name_run {id : TypeId} {name : String}
    (hname : ((run overrides (m, rs)).1.typeAt id).name = some name) :
    Identifier.isValid name = true := by
  have hnamed : (m.typeAt id).isAnonymous = false := by
    rw [← (run_sameShape overrides hm rs).anonymous, TypeDecl.isAnonymous, hname]
    rfl
  obtain ⟨before, _, name', _, hname', hfirst⟩ := name_run_isFirstFree overrides hm rs hnamed
  cases hname.symm.trans hname'
  rw [Text.isFirstFree_iff.mp hfirst]
  exact Identifier.isValid_fresh _ _

theorem map_withoutNames_run : (run overrides (m, rs)).1.types.map TypeDecl.withoutNames =
    m.types.map TypeDecl.withoutNames := by
  have hsize := (run_sameShape overrides hm rs).types_size
  refine Array.ext (by simpa using hsize) fun id hid hid' => ?_
  have hkept := withoutNames_run overrides hm rs id
  rw [Array.size_map] at hid hid'
  simpa [Model.typeAt, Array.getD, hid, hid'] using hkept

end Run

/-- Naming a model gives every named declaration a name that is an identifier and not reserved, and
every member a name that is an identifier. No two declarations of a module and no two members of a
declaration have the same name. Each name is what it is made from, if that is free of the names
before it, and otherwise that with the smallest number from two on that is free. All else stays. -/
theorem run_proper (hm : m.Built) (overrides : List (String × String)) (rs : List Rename) :
    Proper overrides m (run overrides (m, rs)).1 := by
  have hindexed := hm.indexed
  have hshape := run_sameShape overrides hindexed rs
  refine
    { valid := fun id name => isValid_name_run overrides hindexed rs
      distinct := fun i hi => run_distinct overrides hindexed rs (hshape.modules_size ▸ hi)
      chosen := fun id => name_run_isFirstFree overrides hindexed rs
      member_word := fun id member hmember => ?_
      member_distinct := fun id => ?_
      member_chosen := fun id before member after hsplit => ?_
      modules := modules_run overrides hindexed rs
      types := map_withoutNames_run overrides hindexed rs }
  · rw [typeAt_run overrides hindexed rs] at hmember
    exact isWord_name_nameMembers _ _ (List.mem_map_of_mem hmember)
  · rw [typeAt_run overrides hindexed rs, map_name_nameMembers]
    exact Text.freshAll_nodup _ _ _
  · rw [typeAt_run overrides hindexed rs] at hsplit
    have hnames := map_name_nameMembers ((renamed overrides rs m).1.typeAt id)
    rw [hsplit] at hnames
    exact Text.isFirstFree_of_map_eq hnames

/-- The names `Item2`, `Item` and `Item` again, a name that is given another one, and two members of
the same name. -/
def itemModel : Model :=
  let declared := ["Item2", "Item", "Item"].foldl
    (fun m name => (m.addType (.ofSchema 0 (some name) .interface)).1)
    (({} : Model).addModule "urn:a" "a").1
  (declared.addType { TypeDecl.ofSchema 0 (some "v-1") .interface with
    members := [.ofSchema "1st" .element (.primitive .string), .ofSchema "_1st" .attr (.decl 7)] }).1

theorem built_itemModel : itemModel.Built := by
  refine .addType (.addType (.addType (.addType (.addModule .empty _ _) _ ?_) _ ?_) _ ?_) _ ?_
  all_goals exact fun _ => by decide

theorem run_proper_example : itemModel.Built ∧
    ((run [("v-1", "class")] (itemModel, [])).1.types.toList.map fun d =>
      (d.name, d.members.map Member.name)) =
      [(some "Item2", []), (some "Item", []), (some "Item3", []), (some "class_", ["_1st", "_1st2"])] ∧
    Proper [("v-1", "class")] itemModel (run [("v-1", "class")] (itemModel, [])).1 :=
  ⟨built_itemModel, by decide +kernel, run_proper built_itemModel _ _⟩

end Naming

end XsdTypes
