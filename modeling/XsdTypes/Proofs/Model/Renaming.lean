import XsdTypes.Proofs.Model.Identifiers

/-!
# Naming twice is naming once

The names that a run gives are those that a second run would give: a declaration meets the same names
before it, and its own name is made from the same one as before, or is already an identifier that is
free. So nothing more is recorded, and the changes on record are those from the first names to the
last.
-/

namespace XsdTypes.Naming

variable {m : Model}

/-! ## What is recorded -/

theorem record_of_ne (id : TypeId) (old new : String) {rs : List Rename} (h : ∀ r ∈ rs, r.id ≠ id) :
    record id old new rs = rs ++ [⟨id, old, new⟩] := by
  induction rs with
  | nil => rfl
  | cons r rs ih =>
    rw [record, if_neg (h r List.mem_cons_self),
      ih fun r' hr' => h r' (List.mem_cons_of_mem _ hr'), List.cons_append]

/-- The change that an entry of the table makes, if it is one. -/
def change (m : Model) (entry : TypeId × String) : Option Rename :=
  ((m.typeAt entry.1).name.filter (· ≠ entry.2)).map fun old => ⟨entry.1, old, entry.2⟩

theorem change_eq_some {entry : TypeId × String} {r : Rename} : change m entry = some r ↔
    entry = (r.id, r.new) ∧ (m.typeAt r.id).name = some r.old ∧ r.old ≠ r.new := by
  rw [change, Option.map_eq_some_iff]
  constructor
  · rintro ⟨old, hold, rfl⟩
    obtain ⟨hname, hne⟩ := Option.filter_eq_some_iff.mp hold
    exact ⟨rfl, hname, by simpa using hne⟩
  · rintro ⟨rfl, hname, hne⟩
    exact ⟨r.old, Option.filter_eq_some_iff.mpr ⟨hname, by simpa using hne⟩, rfl⟩

theorem renameType_snd {rs : List Rename} {id : TypeId} (h : ∀ r ∈ rs, r.id ≠ id) (new : String) :
    (renameType (m, rs) id new).2 = rs ++ (change m (id, new)).toList := by
  simp only [renameType, change]
  cases (m.typeAt id).name with
  | none => simp
  | some old =>
    by_cases heq : new = old
    · simp [heq]
    · simp [heq, Ne.symm heq, Option.filter_some, record_of_ne id old new h]

/-- A table with no declaration twice leaves on record what its entries change. -/
theorem renameAll_snd {entries : List (TypeId × String)} (hnodup : (entries.map Prod.fst).Nodup)
    (state : Model × List Rename) (h : ∀ entry ∈ entries, ∀ r ∈ state.2, r.id ≠ entry.1) :
    (renameAll state entries).2 = state.2 ++ entries.filterMap (change state.1) := by
  induction entries generalizing state with
  | nil => simp [renameAll]
  | cons entry entries ih =>
    obtain ⟨hnotin, hrest⟩ := List.nodup_cons.mp hnodup
    have hother : ∀ entry' ∈ entries, entry'.1 ≠ entry.1 := fun entry' hentry' heq =>
      hnotin (heq ▸ List.mem_map_of_mem hentry')
    have hfirst := renameType_snd (m := state.1) (h entry List.mem_cons_self) entry.2
    have hrenames := renameType_renames state.1 state.2 entry.1 entry.2
    have hsame : ∀ entry' ∈ entries,
        change (renameType state entry.1 entry.2).1 entry' = change state.1 entry' := by
      intro entry' hentry'
      rw [change, hrenames.other _ (hother entry' hentry'), change]
    have hfree : ∀ entry' ∈ entries, ∀ r ∈ (renameType state entry.1 entry.2).2,
        r.id ≠ entry'.1 := by
      intro entry' hentry' r hr
      rw [hfirst] at hr
      rcases List.mem_append.mp hr with hold | hnew
      · exact h entry' (List.mem_cons_of_mem _ hentry') r hold
      · rw [Option.mem_toList, change_eq_some] at hnew
        rw [← (Prod.mk.inj hnew.1).1]
        exact (hother entry' hentry').symm
    rw [show renameAll state (entry :: entries) =
      renameAll (renameType state entry.1 entry.2) entries from rfl, ih hrest _ hfree, hfirst,
      List.filterMap_congr hsame, List.append_assoc]
    cases hchange : change state.1 (entry.1, entry.2) with
    | none => rw [List.filterMap_cons_none hchange]; rfl
    | some r => rw [List.filterMap_cons_some hchange]; rfl

/-! ## A second run -/

theorem renameType_eq_self {state : Model × List Rename} {id : TypeId} {new : String}
    (h : (state.1.typeAt id).name = some new) : renameType state id new = state := by
  simp [renameType, h]

/-- A table that says what the names are already changes nothing. -/
theorem renameAll_eq_self {state : Model × List Rename} {entries : List (TypeId × String)}
    (h : ∀ entry ∈ entries, (state.1.typeAt entry.1).name = some entry.2) :
    renameAll state entries = state := by
  induction entries with
  | nil => rfl
  | cons entry entries ih =>
    rw [renameAll, List.foldl_cons, renameType_eq_self (h entry List.mem_cons_self)]
    exact ih fun entry' hentry' => h entry' (List.mem_cons_of_mem _ hentry')

theorem nameMembers_nameMembers (d : TypeDecl) : nameMembers (nameMembers d) = nameMembers d := by
  have hmembers : (nameMembers (nameMembers d)).members = (nameMembers d).members := by
    have hnames := map_name_nameMembers d
    set members := (nameMembers d).members with hdef
    rw [nameMembers, ← hdef]
    simp only
    rw [← hnames, ← List.map_prod_left_eq_zip, List.map_map]
    exact List.map_id'' (fun _ => rfl) members
  have hbody : nameMembers (nameMembers d) =
      { nameMembers d with members := (nameMembers (nameMembers d)).members } := rfl
  rw [hbody, hmembers]

/-- Every named declaration has a name in the schema, or no names are given for others. -/
def Lasting (overrides : List (String × String)) (m : Model) : Prop :=
  overrides = [] ∨ ∀ id, (m.typeAt id).isAnonymous = false → (m.typeAt id).xmlName.isSome

section Run

variable {overrides : List (String × String)} (hm : m.Indexed) (h : Lasting overrides m)
  (rs : List Rename)

include hm h

/-- Once it has been named, a declaration is named by what it was named by before, or by its name. -/
theorem baseName_run {id : TypeId} (hnamed : (m.typeAt id).isAnonymous = false) :
    baseName overrides ((run overrides (m, rs)).1.typeAt id) = baseName overrides (m.typeAt id) ∨
      baseName overrides ((run overrides (m, rs)).1.typeAt id) =
        ((run overrides (m, rs)).1.typeAt id).name.getD "" := by
  have hxml := xmlName_run overrides hm rs id
  cases hsource : (m.typeAt id).xmlName with
  | some source =>
    left
    simp only [baseName, hxml, hsource, Option.some_or]
  | none =>
    right
    have hempty : overrides = [] := h.resolve_right fun hall => by
      have hsome := hall id hnamed
      rw [hsource] at hsome
      cases hsome
    obtain ⟨_, _, name, _, hname, _⟩ := name_run_isFirstFree overrides hm rs hnamed
    have hvalid := isValid_name_run overrides hm rs hname
    simp only [baseName, hxml, hsource, Option.none_or, hname, Option.getD_some]
    rw [hempty, List.lookup_nil, Option.getD_none, Identifier.forDeclaration, if_pos hvalid]

/-- The table for a model that has been named says what the names are. -/
theorem name_of_mem_tableOf_run {entry : TypeId × String}
    (hentry : entry ∈ tableOf overrides (run overrides (m, rs)).1) :
    ((run overrides (m, rs)).1.typeAt entry.1).name = some entry.2 := by
  obtain ⟨i, hi, hentry⟩ := List.mem_flatMap.mp hentry
  rw [List.mem_range, modules_run overrides hm rs] at hi
  rw [moduleAt_run overrides hm rs, assigned, Text.freshAll_map_of_eq_or
    (getD_names_run overrides hm rs hi) fun id hid =>
      baseName_run hm h rs ((hm.listed i id hi).mp hid).2.2] at hentry
  rw [← List.map_prod_left_eq_zip] at hentry
  obtain ⟨id, hid, rfl⟩ := List.mem_map.mp hentry
  have hnamed := ((hm.listed i id hi).mp hid).2.2
  obtain ⟨_, _, name, _, hname, _⟩ := name_run_isFirstFree overrides hm rs hnamed
  rw [hname, Option.getD_some]

/-- A second run changes nothing and records nothing. -/
theorem run_run (rs' : List Rename) :
    run overrides ((run overrides (m, rs)).1, rs') = ((run overrides (m, rs)).1, rs') := by
  have hagain := (run_sameShape overrides hm rs).indexed hm
  have hrenamed : renamed overrides rs' (run overrides (m, rs)).1 =
      ((run overrides (m, rs)).1, rs') :=
    renameAll_eq_self fun entry hentry => name_of_mem_tableOf_run hm h rs hentry
  have htypes : (run overrides (m, rs)).1.types.map nameMembers =
      (run overrides (m, rs)).1.types := by
    rw [run_eq overrides hm rs, Array.map_map]
    exact Array.map_congr_left fun d _ => nameMembers_nameMembers d
  rw [run_eq overrides hagain rs', hrenamed]
  simp only [htypes]

omit h

/-- A first run records what the entries of the table change. -/
theorem snd_run : (run overrides (m, [])).2 = (tableOf overrides m).filterMap (change m) := by
  rw [run_eq overrides hm []]
  exact renameAll_snd (nodup_tableOf overrides hm) (m, []) fun _ _ r hr =>
    absurd hr List.not_mem_nil

/-- These are the changes from the names before it to those after it. -/
theorem mem_snd_run {r : Rename} : r ∈ (run overrides (m, [])).2 ↔
    (m.typeAt r.id).name = some r.old ∧
      ((run overrides (m, [])).1.typeAt r.id).name = some r.new ∧ r.old ≠ r.new := by
  rw [snd_run hm, List.mem_filterMap]
  constructor
  · rintro ⟨entry, hentry, hchange⟩
    obtain ⟨rfl, hold, hne⟩ := change_eq_some.mp hchange
    exact ⟨hold, ((mem_tableOf overrides hm []).mp hentry).2, hne⟩
  · rintro ⟨hold, hnew, hne⟩
    have hnamed : (m.typeAt r.id).isAnonymous = false := by
      rw [TypeDecl.isAnonymous, hold]
      rfl
    exact ⟨(r.id, r.new), (mem_tableOf overrides hm []).mpr ⟨hnamed, hnew⟩,
      change_eq_some.mpr ⟨rfl, hold, hne⟩⟩

theorem nodup_snd_run : ((run overrides (m, [])).2.map Rename.id).Nodup := by
  rw [snd_run hm, List.Nodup, List.pairwise_map, List.pairwise_filterMap]
  refine (List.pairwise_map.mp (nodup_tableOf overrides hm)).imp fun {entry entry'} hne r hr r' hr' => ?_
  rw [(change_eq_some.mp hr).1, (change_eq_some.mp hr').1] at hne
  exact hne

end Run

/-- A run after a run changes nothing, however often, if every named declaration has a name in the
schema or no names are given for others. The table has an entry for a declaration exactly if its name
before the first run is another one than its last name, and the entry holds these two. -/
theorem run_iterate (hm : m.Built) {overrides : List (String × String)} (h : Lasting overrides m)
    {n : Nat} (hn : 1 ≤ n) :
    let last := (run overrides)^[n] (m, [])
    last.1 = (run overrides (m, [])).1 ∧
      (∀ r, r ∈ table last.2 ↔ (m.typeAt r.id).name = some r.old ∧
        (last.1.typeAt r.id).name = some r.new ∧ r.old ≠ r.new) ∧
      (table last.2).Pairwise fun r r' => r.id < r'.id := by
  intro last
  have hlast : last = run overrides (m, []) := by
    obtain ⟨k, rfl⟩ := Nat.exists_eq_add_of_le' hn
    exact Function.iterate_fixed (run_run hm.indexed h [] _) k
  rw [hlast]
  refine ⟨rfl, fun r => ?_, ?_⟩
  · rw [table, (List.mergeSort_perm _ _).mem_iff, mem_snd_run hm.indexed]
  · exact pairwise_lt_mergeSort (fun _ _ => decide_eq_true_iff) (nodup_snd_run hm.indexed)

theorem run_iterate_example : itemModel.Built ∧ Lasting [("v-1", "class")] itemModel ∧
    ((run [("v-1", "class")])^[3] (itemModel, [])).1 =
      (run [("v-1", "class")] (itemModel, [])).1 ∧
    ⟨2, "Item", "Item3"⟩ ∈ table ((run [("v-1", "class")])^[3] (itemModel, [])).2 ∧
    ∀ old new, ⟨1, old, new⟩ ∉ table ((run [("v-1", "class")])^[3] (itemModel, [])).2 := by
  have hlasting : Lasting [("v-1", "class")] itemModel := by
    refine Or.inr fun id hnamed => ?_
    have hall : ∀ id, id < itemModel.types.size → (itemModel.typeAt id).xmlName.isSome := by decide
    exact hall id (Model.lt_of_named hnamed)
  have hnames : (itemModel.typeAt 1).name = some "Item" ∧ (itemModel.typeAt 2).name = some "Item" ∧
      (((run [("v-1", "class")])^[3] (itemModel, [])).1.typeAt 1).name = some "Item" ∧
      (((run [("v-1", "class")])^[3] (itemModel, [])).1.typeAt 2).name = some "Item3" := by
    decide +kernel
  obtain ⟨hfirst, hsecond, hfirst', hsecond'⟩ := hnames
  obtain ⟨hsame, htable, _⟩ := run_iterate built_itemModel hlasting (by decide : 1 ≤ 3)
  refine ⟨built_itemModel, hlasting, hsame, ?_, fun old new hmem => ?_⟩
  · exact (htable _).mpr ⟨hsecond, hsecond', by decide⟩
  · obtain ⟨hold, hnew, hne⟩ := (htable _).mp hmem
    exact hne (Option.some.inj (hold.symm.trans (hfirst.trans (hfirst'.symm.trans hnew))))

end XsdTypes.Naming
