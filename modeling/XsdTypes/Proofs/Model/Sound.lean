import XsdTypes.Model.Basic
import XsdTypes.Proofs.Arrays

/-!
# Sound models

In a sound model every number means something: modules carry their own numbers and list exactly the
named declarations that belong to them, and declarations refer to declarations of the model. Each way
of building a model keeps it sound. A model that is built of any declarations whatever is at least
indexed: its modules list what belongs to them.
-/

namespace XsdTypes

/-- The declaration that a type refers to, if any, is one of the first `n`. -/
def TypeRef.InRange (n : Nat) (r : TypeRef) : Prop :=
  ∀ id, r.decl? = some id → id < n

theorem TypeRef.InRange.mono {n k : Nat} {r : TypeRef} (h : r.InRange n) (hle : n ≤ k) :
    r.InRange k :=
  fun id hid => Nat.lt_of_lt_of_le (h id hid) hle

theorem TypeRef.inRange_array {n : Nat} {r : TypeRef} : (TypeRef.array r).InRange n ↔ r.InRange n :=
  Iff.rfl

namespace Model

/-- Every number in the model means something. -/
structure Sound (m : Model) : Prop where
  id_eq : ∀ i, i < m.modules.size → (m.moduleAt i).id = i
  owner_lt : ∀ id, id < m.types.size → (m.typeAt id).owner < m.modules.size
  /-- A module lists the named declarations that belong to it. -/
  listed : ∀ i id : Nat, i < m.modules.size → (id ∈ (m.moduleAt i).types ↔
    id < m.types.size ∧ (m.typeAt id).owner = i ∧ (m.typeAt id).isAnonymous = false)
  nodup : ∀ i, i < m.modules.size → (m.moduleAt i).types.Nodup
  refs : ∀ id, id < m.types.size → ∀ r ∈ (m.typeAt id).refs, r.InRange m.types.size

/-- Modules carry their own numbers and list the named declarations, each in the module that it
belongs to. -/
structure Indexed (m : Model) : Prop where
  id_eq : ∀ i, i < m.modules.size → (m.moduleAt i).id = i
  owner_lt : ∀ id, (m.typeAt id).isAnonymous = false → (m.typeAt id).owner < m.modules.size
  listed : ∀ i id : Nat, i < m.modules.size → (id ∈ (m.moduleAt i).types ↔
    id < m.types.size ∧ (m.typeAt id).owner = i ∧ (m.typeAt id).isAnonymous = false)
  nodup : ∀ i, i < m.modules.size → (m.moduleAt i).types.Nodup

/-- All numbers are in range, whatever the modules list. -/
structure Closed (m : Model) : Prop where
  id_eq : ∀ i, i < m.modules.size → (m.moduleAt i).id = i
  owner_lt : ∀ id, id < m.types.size → (m.typeAt id).owner < m.modules.size
  listed_lt : ∀ i, i < m.modules.size → ∀ id ∈ (m.moduleAt i).types, id < m.types.size
  refs : ∀ id, id < m.types.size → ∀ r ∈ (m.typeAt id).refs, r.InRange m.types.size

variable (m : Model)

/-! ## Reading a model back after a change -/

section Reading

variable (decl : TypeDecl) (f : TypeDecl → TypeDecl) (g : Module → Module) (id i : Nat)

@[simp] theorem modifyType_types_size : (m.modifyType id f).types.size = m.types.size := by
  simp [modifyType]

@[simp] theorem modifyType_modules : (m.modifyType id f).modules = m.modules := rfl

theorem typeAt_modifyType (j : Nat) :
    (m.modifyType id f).typeAt j =
      if j = id ∧ j < m.types.size then f (m.typeAt j) else m.typeAt j :=
  getD_modify m.types id j f

@[simp] theorem modifyModule_types : (m.modifyModule id g).types = m.types := rfl

@[simp] theorem modifyModule_modules_size : (m.modifyModule id g).modules.size = m.modules.size := by
  simp [modifyModule]

theorem moduleAt_modifyModule (j : Nat) :
    (m.modifyModule id g).moduleAt j =
      if j = id ∧ j < m.modules.size then g (m.moduleAt j) else m.moduleAt j :=
  getD_modify m.modules id j g

/-- A change that changes nothing gives the same model. -/
theorem modifyModule_eq_self (h : g (m.moduleAt i) = m.moduleAt i) : m.modifyModule i g = m := by
  have hmodules : m.modules.modify i g = m.modules := by
    refine Array.ext (by simp) fun j hj hj' => ?_
    rw [Array.getElem_modify]
    split
    · rename_i hij
      subst hij
      simpa [moduleAt, Array.getD, hj'] using h
    · rfl
  rw [modifyModule, hmodules]

@[simp] theorem addType_types_size : (m.addType decl).1.types.size = m.types.size + 1 := by
  unfold addType
  split <;> simp

@[simp] theorem addType_modules_size : (m.addType decl).1.modules.size = m.modules.size := by
  unfold addType
  split <;> simp

theorem typeAt_addType (j : Nat) :
    (m.addType decl).1.typeAt j = if j = m.types.size then decl else m.typeAt j := by
  have htypes : (m.addType decl).1.types = m.types.push decl := by
    unfold addType
    split <;> rfl
  rw [typeAt, htypes, getD_push, typeAt]

/-- A declaration with a name is listed at the end of its module. -/
theorem moduleAt_addType (j : Nat) :
    (m.addType decl).1.moduleAt j =
      if decl.isAnonymous = false ∧ j = decl.owner ∧ j < m.modules.size then
        { m.moduleAt j with types := (m.moduleAt j).types ++ [m.types.size] }
      else m.moduleAt j := by
  cases hanon : decl.isAnonymous with
  | true =>
    have hmodules : (m.addType decl).1.modules = m.modules := by simp [addType, hanon]
    rw [moduleAt, hmodules, if_neg (by simp), moduleAt]
  | false =>
    have hmodules : (m.addType decl).1.modules = (m.modifyModule decl.owner fun info =>
        { info with types := info.types ++ [m.types.size] }).modules := by simp [addType, hanon]
    have hat : (m.addType decl).1.moduleAt j = (m.modifyModule decl.owner fun info =>
        { info with types := info.types ++ [m.types.size] }).moduleAt j := by
      rw [moduleAt, hmodules, moduleAt]
    rw [hat, moduleAt_modifyModule]
    simp

variable (uri path : String)

@[simp] theorem addModule_types : (m.addModule uri path).1.types = m.types := rfl

@[simp] theorem addModule_modules_size :
    (m.addModule uri path).1.modules.size = m.modules.size + 1 := by
  simp [addModule]

theorem moduleAt_addModule_of_lt {j : Nat} (hj : j < m.modules.size) :
    (m.addModule uri path).1.moduleAt j = m.moduleAt j := by
  simp only [moduleAt, addModule]
  rw [getD_push, if_neg (Nat.ne_of_lt hj)]

theorem moduleAt_addModule_self :
    ((m.addModule uri path).1.moduleAt m.modules.size).id = m.modules.size ∧
      ((m.addModule uri path).1.moduleAt m.modules.size).types = [] := by
  simp only [moduleAt, addModule]
  rw [getD_push, if_pos rfl]
  exact ⟨rfl, rfl⟩

end Reading

variable {m}

theorem typeOf_eq {id : TypeId} (hid : id < m.types.size) : m.typeOf id = .ok (m.typeAt id) := by
  rw [typeOf, typeAt, Array.getD_eq_getD_getElem?, Array.getElem?_eq_getElem hid]
  rfl

theorem moduleOf_eq {i : ModuleId} (hi : i < m.modules.size) : m.moduleOf i = .ok (m.moduleAt i) := by
  rw [moduleOf, moduleAt, Array.getD_eq_getD_getElem?, Array.getElem?_eq_getElem hi]
  rfl

theorem lt_of_named {id : TypeId} (hnamed : (m.typeAt id).isAnonymous = false) :
    id < m.types.size := by
  by_contra hge
  rw [typeAt, getD_of_size_le m.types (Nat.le_of_not_lt hge)] at hnamed
  cases hnamed

theorem moduleIds_eq (hid : ∀ i, i < m.modules.size → (m.moduleAt i).id = i) :
    m.moduleIds = List.range m.modules.size := by
  rw [moduleIds, toList_eq_map_getD, List.map_map]
  exact (List.map_congr_left fun i hi => hid i (List.mem_range.mp hi)).trans (List.map_id _)

/-! ## Building a model -/

theorem indexed_empty : ({} : Model).Indexed where
  id_eq _ h := absurd h (Nat.not_lt_zero _)
  owner_lt _ h := absurd (lt_of_named h) (Nat.not_lt_zero _)
  listed _ _ h := absurd h (Nat.not_lt_zero _)
  nodup _ h := absurd h (Nat.not_lt_zero _)

namespace Indexed

theorem addModule (h : m.Indexed) (uri path : String) : (m.addModule uri path).1.Indexed := by
  have hcases : ∀ i, i < (m.addModule uri path).1.modules.size →
      i < m.modules.size ∨ i = m.modules.size := by
    intro i hi
    rw [addModule_modules_size] at hi
    exact Nat.lt_or_eq_of_le (Nat.le_of_lt_succ hi)
  obtain ⟨hid, hnone⟩ := m.moduleAt_addModule_self uri path
  refine
    { id_eq := fun i hi => ?_
      owner_lt := fun id hnamed => ?_
      listed := fun i id hi => ?_
      nodup := fun i hi => ?_ }
  · rcases hcases i hi with hold | rfl
    · rw [moduleAt_addModule_of_lt _ _ _ hold]
      exact h.id_eq i hold
    · exact hid
  · rw [addModule_modules_size]
    exact Nat.lt_succ_of_lt (h.owner_lt id hnamed)
  · rcases hcases i hi with hold | rfl
    · rw [moduleAt_addModule_of_lt _ _ _ hold]
      exact h.listed i id hold
    -- no named declaration belongs to a module that is new
    · rw [hnone]
      refine ⟨fun hmem => absurd hmem List.not_mem_nil, ?_⟩
      rintro ⟨_, howner, hnamed⟩
      exact absurd howner (Nat.ne_of_lt (h.owner_lt id hnamed))
  · rcases hcases i hi with hold | rfl
    · rw [moduleAt_addModule_of_lt _ _ _ hold]
      exact h.nodup i hold
    · rw [hnone]
      exact List.nodup_nil

theorem addType (h : m.Indexed) {decl : TypeDecl}
    (howner : decl.isAnonymous = false → decl.owner < m.modules.size) :
    (m.addType decl).1.Indexed := by
  have hnotin : ∀ i, i < m.modules.size → m.types.size ∉ (m.moduleAt i).types := by
    intro i hi hmem
    exact absurd ((h.listed i _ hi).mp hmem).1 (Nat.lt_irrefl _)
  refine
    { id_eq := fun i hi => ?_
      owner_lt := fun id hnamed => ?_
      listed := fun i id hi => ?_
      nodup := fun i hi => ?_ }
  · rw [addType_modules_size] at hi
    rw [moduleAt_addType]
    split <;> exact h.id_eq i hi
  · rw [addType_modules_size]
    rw [typeAt_addType] at hnamed ⊢
    split at hnamed
    · rename_i hnew
      rw [if_pos hnew]
      exact howner hnamed
    · rename_i hold
      rw [if_neg hold]
      exact h.owner_lt id hnamed
  · rw [addType_modules_size] at hi
    rw [moduleAt_addType, addType_types_size, typeAt_addType]
    have hold := h.listed i id hi
    by_cases hnew : id = m.types.size
    · subst hnew
      rw [if_pos rfl]
      split
      · rename_i hnamed
        simp [hnamed.1, hnamed.2.1]
      · rename_i hother
        refine ⟨fun hmem => absurd hmem (hnotin i hi), ?_⟩
        rintro ⟨_, hown, hnamed⟩
        exact absurd ⟨hnamed, hown.symm, hi⟩ hother
    · rw [if_neg hnew]
      have hlt : id < m.types.size + 1 ↔ id < m.types.size := by omega
      rw [hlt, ← hold]
      split
      · simp [hnew]
      · exact Iff.rfl
  · rw [addType_modules_size] at hi
    rw [moduleAt_addType]
    split
    · exact List.nodup_append.mpr ⟨h.nodup i hi, List.nodup_singleton _,
        fun a ha b hb hab => hnotin i hi (List.mem_singleton.mp hb ▸ hab ▸ ha)⟩
    · exact h.nodup i hi

end Indexed

/-- The model is built by adding modules and declarations. A declaration with a name belongs to a
module that is there. -/
inductive Built : Model → Prop
  | empty : Built {}
  | addModule {m : Model} (h : Built m) (uri path : String) : Built (m.addModule uri path).1
  | addType {m : Model} (h : Built m) (decl : TypeDecl)
      (howner : decl.isAnonymous = false → decl.owner < m.modules.size) : Built (m.addType decl).1

theorem Built.indexed (h : m.Built) : m.Indexed := by
  induction h with
  | empty => exact indexed_empty
  | addModule _ uri path ih => exact ih.addModule uri path
  | addType _ decl howner ih => exact ih.addType howner

theorem sound_empty : ({} : Model).Sound where
  id_eq _ h := absurd h (Nat.not_lt_zero _)
  owner_lt _ h := absurd h (Nat.not_lt_zero _)
  listed _ _ h := absurd h (Nat.not_lt_zero _)
  nodup _ h := absurd h (Nat.not_lt_zero _)
  refs _ h := absurd h (Nat.not_lt_zero _)

namespace Sound

theorem indexed (h : m.Sound) : m.Indexed :=
  { h with owner_lt := fun id hnamed => h.owner_lt id (lt_of_named hnamed) }

theorem closed (h : m.Sound) : m.Closed :=
  { h with listed_lt := fun i hi id hid => ((h.listed i id hi).mp hid).1 }

theorem mem_modules_iff (h : m.Sound) {info : Module} :
    info ∈ m.modules.toList ↔ info.id < m.modules.size ∧ m.moduleAt info.id = info := by
  have hat : ∀ i (hi : i < m.modules.size), m.moduleAt i = m.modules[i] := by
    intro i hi
    rw [moduleAt, Array.getD_eq_getD_getElem?, Array.getElem?_eq_getElem hi]
    rfl
  rw [Array.mem_toList_iff]
  constructor
  · intro hmem
    obtain ⟨i, hi, rfl⟩ := Array.getElem_of_mem hmem
    have hid := h.id_eq i hi
    rw [hat i hi] at hid
    rw [hid]
    exact ⟨hi, hat i hi⟩
  · rintro ⟨hlt, heq⟩
    rw [← heq, hat _ hlt]
    exact Array.getElem_mem hlt

theorem addModule (h : m.Sound) (uri path : String) : (m.addModule uri path).1.Sound :=
  { h.indexed.addModule uri path with
    owner_lt := fun id hlt => by
      rw [addModule_modules_size]
      exact Nat.lt_succ_of_lt (h.owner_lt id hlt)
    refs := h.refs }

theorem addType (h : m.Sound) {decl : TypeDecl} (howner : decl.owner < m.modules.size)
    (hrefs : ∀ r ∈ decl.refs, r.InRange m.types.size) : (m.addType decl).1.Sound := by
  have hcases : ∀ id, id < (m.addType decl).1.types.size →
      (id < m.types.size ∧ (m.addType decl).1.typeAt id = m.typeAt id) ∨
        (id = m.types.size ∧ (m.addType decl).1.typeAt id = decl) := by
    intro id hlt
    rw [addType_types_size] at hlt
    rw [typeAt_addType]
    rcases Nat.lt_or_eq_of_le (Nat.le_of_lt_succ hlt) with hold | rfl
    · exact Or.inl ⟨hold, if_neg (Nat.ne_of_lt hold)⟩
    · exact Or.inr ⟨rfl, if_pos rfl⟩
  refine
    { h.indexed.addType fun _ => howner with
      owner_lt := fun id hlt => ?_
      refs := fun id hlt r hr => ?_ }
  · rw [addType_modules_size]
    rcases hcases id hlt with ⟨hold, heq⟩ | ⟨_, heq⟩ <;> rw [heq]
    · exact h.owner_lt id hold
    · exact howner
  · rw [addType_types_size]
    rcases hcases id hlt with ⟨hold, heq⟩ | ⟨_, heq⟩ <;> rw [heq] at hr
    · exact (h.refs id hold r hr).mono (Nat.le_succ _)
    · exact (hrefs r hr).mono (Nat.le_succ _)

/-- A declaration may change in all but its owner and whether it has a name. -/
theorem modifyType (h : m.Sound) (id : TypeId) {f : TypeDecl → TypeDecl}
    (howner : (f (m.typeAt id)).owner = (m.typeAt id).owner)
    (hname : (f (m.typeAt id)).isAnonymous = (m.typeAt id).isAnonymous)
    (hrefs : ∀ r ∈ (f (m.typeAt id)).refs, r.InRange m.types.size) : (m.modifyType id f).Sound := by
  have hsame : ∀ j, ((m.modifyType id f).typeAt j).owner = (m.typeAt j).owner ∧
      ((m.modifyType id f).typeAt j).isAnonymous = (m.typeAt j).isAnonymous := by
    intro j
    rw [typeAt_modifyType]
    split
    · rename_i hj
      rw [hj.1]
      exact ⟨howner, hname⟩
    · exact ⟨rfl, rfl⟩
  refine
    { id_eq := h.id_eq
      owner_lt := fun j hj => ?_
      listed := fun i j hi => ?_
      nodup := h.nodup
      refs := fun j hj r hr => ?_ }
  · rw [(hsame j).1]
    exact h.owner_lt j (by simpa using hj)
  · rw [(hsame j).1, (hsame j).2, modifyType_types_size]
    exact h.listed i j hi
  · rw [modifyType_types_size] at hj ⊢
    rw [typeAt_modifyType] at hr
    split at hr
    · rename_i hid
      rw [hid.1] at hr
      exact hrefs r hr
    · exact h.refs j hj r hr

end Sound

end Model

end XsdTypes
