import XsdTypes.Proofs.Model.Sound
import XsdTypes.Proofs.Model.Traversal

/-!
# What a walk meets

A walk through a module enters every declaration that is written in it, and meets every reference in
them and no others, so a module depends on exactly those modules that what is written in it refers
to. This does not depend on the names of declarations and on imports.
-/

namespace XsdTypes

/-- The declaration is written in a module: it is listed there, or it has no name and is a part of
one that is written there. -/
inductive Model.WrittenIn (m : Model) (here : ModuleId) : TypeId → Prop
  | listed {id : TypeId} (h : id ∈ (m.moduleAt here).types) : WrittenIn m here id
  | inline {id target : TypeId} {r : TypeRef} (hid : WrittenIn m here id)
      (hr : r ∈ (m.typeAt id).refs) (htarget : r.decl? = some target)
      (hanon : (m.typeAt target).isAnonymous = true) : WrittenIn m here target

namespace Model

variable {m m' m'' : Model} {here : ModuleId} {id target : TypeId} {r : TypeRef}

theorem WrittenIn.lt (hm : m.Closed) (hhere : here < m.modules.size) (h : m.WrittenIn here id) :
    id < m.types.size := by
  induction h with
  | listed h => exact hm.listed_lt here hhere _ h
  | inline _ hr htarget _ ih => exact hm.refs _ ih _ hr _ htarget

/-- What is written in a module is what is reached from the declarations it lists. -/
theorem writtenIn_iff_within : m.WrittenIn here id ↔ m.Within (m.moduleAt here).types id := by
  constructor
  · intro h
    induction h with
    | @listed id h => exact ⟨id, h, .refl⟩
    | inline _ hr htarget hanon ih =>
      obtain ⟨start, hstart, hpath⟩ := ih
      exact ⟨start, hstart, hpath.tail ⟨_, hr, htarget, hanon⟩⟩
  · rintro ⟨start, hstart, hpath⟩
    induction hpath with
    | refl => exact .listed hstart
    | tail _ hholds ih =>
      obtain ⟨r, hr, htarget, hanon⟩ := hholds
      exact .inline ih hr htarget hanon

/-- The walk through a module meets the references in what is written there. -/
theorem ref_mem_walkModule {type : TypeRef} :
    .ref id type ∈ m.walkModule here (fun _ => true) ↔
      m.WrittenIn here id ∧ ∃ r ∈ (m.typeAt id).refs, r.element = type := by
  have hperformed := Walk.performs_through (fun _ => true) m (m.moduleAt here).types
  have hwalk : Walk.Exhaustive m _ (m.walkModule here fun _ => true) := hperformed.exhaustive
  have hentered : .enter id ∈ m.walkModule here (fun _ => true) ↔ m.WrittenIn here id := by
    rw [writtenIn_iff_within, ← hperformed.mem_seen]
    exact (hperformed.recorded Walk.recorded_empty).enter_mem id
  rw [← WalkEvent.mem_refsIn, hwalk.refs]
  by_cases hid : m.WrittenIn here id
  · rw [if_pos (hentered.mpr hid)]
    simp [hid]
  · rw [if_neg (fun hmem => hid (hentered.mp hmem))]
    simp [hid]

theorem WrittenIn.mem_dependencies (hm : m.Closed) (hhere : here < m.modules.size)
    (h : m.WrittenIn here id) (hr : r ∈ (m.typeAt id).refs) (htarget : r.decl? = some target)
    (hother : (m.typeAt target).owner ≠ here) : (m.typeAt target).owner ∈ m.dependencies here := by
  have hlt : target < m.types.size := hm.refs id (h.lt hm hhere) r hr target htarget
  have hmet : .ref id (.decl target) ∈ m.walkModule here (fun _ => true) :=
    ref_mem_walkModule.mpr ⟨h, r, hr, TypeRef.decl?_eq_some.mp htarget⟩
  have hreferenced : (m.typeAt target).owner ∈ m.referencedModules here :=
    List.mem_filterMap.mpr ⟨.ref id (.decl target), hmet, rfl⟩
  refine List.mem_filter.mpr ⟨List.mem_range.mpr (hm.owner_lt target hlt), ?_⟩
  simpa using ⟨hother, hreferenced⟩

/-- A declaration that is written in a module refers to one that belongs to another. -/
def RefersTo (m : Model) (here other : ModuleId) : Prop :=
  ∃ id r target, m.WrittenIn here id ∧ r ∈ (m.typeAt id).refs ∧ r.decl? = some target ∧
    (m.typeAt target).owner = other

theorem refersTo_of_mem_dependencies {other : ModuleId} (h : other ∈ m.dependencies here) :
    other ≠ here ∧ m.RefersTo here other := by
  obtain ⟨hother, hreferenced⟩ : other ≠ here ∧ other ∈ m.referencedModules here := by
    have hmem := (List.mem_filter.mp h).2
    rw [Bool.and_eq_true, decide_eq_true_eq] at hmem
    exact ⟨hmem.1, List.contains_iff_mem.mp hmem.2⟩
  obtain ⟨event, hevent, howner⟩ := List.mem_filterMap.mp hreferenced
  split at howner
  · rename_i id target
    obtain ⟨hid, r, hr, helement⟩ := ref_mem_walkModule.mp hevent
    exact ⟨hother, id, r, target, hid, hr, TypeRef.decl?_eq_some.mpr helement, Option.some.inj howner⟩
  · cases howner

/-- A module depends on exactly those others that own what is referred to in it. -/
theorem mem_dependencies (hm : m.Closed) (hhere : here < m.modules.size) {other : ModuleId} :
    other ∈ m.dependencies here ↔ other ≠ here ∧ m.RefersTo here other := by
  refine ⟨refersTo_of_mem_dependencies, ?_⟩
  rintro ⟨hother, id, r, target, hid, hr, htarget, rfl⟩
  exact hid.mem_dependencies hm hhere hr htarget hother

/-! ## Models in which less is written -/

/-- Less may be listed in modules and referred to in declarations, and none of them has lost its
name. Names and imports are left out of account. -/
structure Shrinks (m m' : Model) : Prop where
  types_size : m'.types.size = m.types.size
  modules_size : m'.modules.size = m.modules.size
  id : ∀ i, (m'.moduleAt i).id = (m.moduleAt i).id
  listed : ∀ i, (m'.moduleAt i).types ⊆ (m.moduleAt i).types
  owner : ∀ id, (m'.typeAt id).owner = (m.typeAt id).owner
  anonymous : ∀ id, (m'.typeAt id).isAnonymous = true → (m.typeAt id).isAnonymous = true
  refs : ∀ id, (m'.typeAt id).refs ⊆ (m.typeAt id).refs

namespace Shrinks

theorem trans (h : m.Shrinks m') (h' : m'.Shrinks m'') : m.Shrinks m'' where
  types_size := h'.types_size.trans h.types_size
  modules_size := h'.modules_size.trans h.modules_size
  id i := (h'.id i).trans (h.id i)
  listed i := List.Subset.trans (h'.listed i) (h.listed i)
  owner id := (h'.owner id).trans (h.owner id)
  anonymous id hanon := h.anonymous id (h'.anonymous id hanon)
  refs id := List.Subset.trans (h'.refs id) (h.refs id)

theorem closed (h : m.Shrinks m') (hm : m.Closed) : m'.Closed where
  id_eq i hi := by
    rw [h.id]
    exact hm.id_eq i (h.modules_size ▸ hi)
  owner_lt id hid := by
    rw [h.owner, h.modules_size]
    exact hm.owner_lt id (h.types_size ▸ hid)
  listed_lt i hi id hid := by
    rw [h.types_size]
    exact hm.listed_lt i (h.modules_size ▸ hi) id (h.listed i hid)
  refs id hid r hr := by
    rw [h.types_size]
    exact hm.refs id (h.types_size ▸ hid) r (h.refs id hr)

theorem writtenIn (h : m.Shrinks m') (hid : m'.WrittenIn here id) : m.WrittenIn here id := by
  induction hid with
  | listed hmem => exact .listed (h.listed here hmem)
  | inline _ hr htarget hanon ih => exact .inline ih (h.refs _ hr) htarget (h.anonymous _ hanon)

/-- No module depends on more than before. -/
theorem refersTo (h : m.Shrinks m') {other : ModuleId} (hrefers : m'.RefersTo here other) :
    m.RefersTo here other := by
  obtain ⟨id, r, target, hid, hr, htarget, howner⟩ := hrefers
  exact ⟨id, r, target, h.writtenIn hid, h.refs id hr, htarget, (h.owner target).symm.trans howner⟩

end Shrinks

/-! ## Models that differ in names and imports -/

/-- Names and imports apart, the models are the same. -/
structure SameShape (m m' : Model) : Prop where
  types_size : m'.types.size = m.types.size
  modules_size : m'.modules.size = m.modules.size
  id : ∀ i, (m'.moduleAt i).id = (m.moduleAt i).id
  listed : ∀ i, (m'.moduleAt i).types = (m.moduleAt i).types
  owner : ∀ id, (m'.typeAt id).owner = (m.typeAt id).owner
  anonymous : ∀ id, (m'.typeAt id).isAnonymous = (m.typeAt id).isAnonymous
  refs : ∀ id, (m'.typeAt id).refs = (m.typeAt id).refs

namespace SameShape

theorem refl (m : Model) : m.SameShape m :=
  ⟨rfl, rfl, fun _ => rfl, fun _ => rfl, fun _ => rfl, fun _ => rfl, fun _ => rfl⟩

theorem trans (h : m.SameShape m') (h' : m'.SameShape m'') : m.SameShape m'' where
  types_size := h'.types_size.trans h.types_size
  modules_size := h'.modules_size.trans h.modules_size
  id i := (h'.id i).trans (h.id i)
  listed i := (h'.listed i).trans (h.listed i)
  owner id := (h'.owner id).trans (h.owner id)
  anonymous id := (h'.anonymous id).trans (h.anonymous id)
  refs id := (h'.refs id).trans (h.refs id)

theorem shrinks (h : m.SameShape m') : m.Shrinks m' :=
  { h with
    listed := fun i => h.listed i ▸ List.Subset.refl _
    anonymous := fun id hanon => (h.anonymous id).symm.trans hanon
    refs := fun id => h.refs id ▸ List.Subset.refl _ }

theorem closed (h : m.SameShape m') (hm : m.Closed) : m'.Closed :=
  h.shrinks.closed hm

theorem indexed (h : m.SameShape m') (hm : m.Indexed) : m'.Indexed where
  id_eq i hi := by
    rw [h.id]
    exact hm.id_eq i (h.modules_size ▸ hi)
  owner_lt id hnamed := by
    rw [h.owner, h.modules_size]
    exact hm.owner_lt id ((h.anonymous id).symm.trans hnamed)
  listed i id hi := by
    rw [h.listed, h.owner, h.anonymous, h.types_size]
    exact hm.listed i id (h.modules_size ▸ hi)
  nodup i hi := by
    rw [h.listed]
    exact hm.nodup i (h.modules_size ▸ hi)

theorem sound (h : m.SameShape m') (hm : m.Sound) : m'.Sound :=
  { h.closed hm.closed, h.indexed hm.indexed with }

theorem visit_eq (h : m.SameShape m') (goesOn : List WalkEvent → Bool) (fuel : Nat) :
    Walk.visit goesOn m' fuel = Walk.visit goesOn m fuel := by
  induction fuel with
  | zero => rfl
  | succ fuel ih =>
    funext id w
    have hmeet : Walk.meet goesOn m' fuel id = Walk.meet goesOn m fuel id := by
      funext w r
      simp only [Walk.meet, ih, h.anonymous]
    rw [Walk.visit_succ, Walk.visit_succ, hmeet, h.refs]

theorem dependencies_eq (h : m.SameShape m') (here : ModuleId) :
    m'.dependencies here = m.dependencies here := by
  simp only [dependencies, referencedModules, walkModule, Walk.through, h.listed, h.types_size,
    h.visit_eq, h.owner, h.modules_size]

end SameShape

end Model

end XsdTypes
