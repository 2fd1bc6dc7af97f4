import XsdTypes.Model.Walk
import XsdTypes.Proofs.Arrays
import XsdTypes.Proofs.Counting

/-!
# Walks come to an end

A walk is a depth-first search: it goes into declarations without a name, and never into one that it
has entered. `Walk.Performs` is this search with no bound on its depth, so a walk that is performed
comes to an end. Every walk is performed, because each declaration that is entered is one fewer to
enter.

All that is said of walks is said of what is performed, by induction on it: which declarations have
been entered and how often, in which order the events stand, and which references have been met.
-/

namespace XsdTypes

theorem TypeRef.decl?_eq_some {r : TypeRef} {target : TypeId} :
    r.decl? = some target ↔ r.element = .decl target := by
  unfold TypeRef.decl?
  split
  · rename_i id helement
    rw [helement, Option.some.injEq, TypeRef.decl.injEq]
  · rename_i hother
    exact ⟨fun h => absurd h (Option.some_ne_none target).symm, fun h => absurd h (hother target)⟩

namespace Model

/-- A declaration refers to one without a name, which is written in it. -/
def Holds (m : Model) (id target : TypeId) : Prop :=
  ∃ r ∈ (m.typeAt id).refs, r.decl? = some target ∧ (m.typeAt target).isAnonymous = true

/-- A declaration is one of `starts`, or is reached from one of them by way of declarations without a
name and has none itself. -/
def Within (m : Model) (starts : List TypeId) (id : TypeId) : Prop :=
  ∃ start ∈ starts, Relation.ReflTransGen m.Holds start id

/-- A number that means nothing is taken for a declaration that refers to nothing. -/
theorem refs_eq_nil_of_size_le {m : Model} {id : TypeId} (h : m.types.size ≤ id) :
    (m.typeAt id).refs = [] := by
  rw [typeAt, getD_of_size_le m.types h]
  rfl

end Model

namespace WalkEvent

/-- The declarations that are open after an event, innermost first, if the event may happen: a
reference belongs to the innermost declaration, and only that one may be left. -/
def openAfter (stack : List TypeId) : WalkEvent → Option (List TypeId)
  | .enter id => some (id :: stack)
  | .ref owner _ => if stack.head? = some owner then some stack else none
  | .leave id => if stack.head? = some id then some stack.tail else none

/-- Every declaration that is entered is left, after all that is entered in it. -/
def Nested (events : List WalkEvent) : Prop :=
  events.foldlM openAfter [] = some []

/-- The declaration that is entered. -/
def entered? : WalkEvent → Option TypeId
  | .enter id => some id
  | _ => none

/-- The type that is referred to in a declaration. -/
def refIn? (id : TypeId) : WalkEvent → Option TypeRef
  | .ref owner type => if owner = id then some type else none
  | _ => none

/-- The references that are met in a declaration, in order. -/
def refsIn (id : TypeId) (events : List WalkEvent) : List TypeRef :=
  events.filterMap (refIn? id)

theorem mem_refsIn {id : TypeId} {type : TypeRef} {events : List WalkEvent} :
    type ∈ refsIn id events ↔ .ref id type ∈ events := by
  unfold refsIn
  rw [List.mem_filterMap]
  constructor
  · rintro ⟨event, hmem, hevent⟩
    cases event with
    | enter id' => cases hevent
    | leave id' => cases hevent
    | ref owner type' =>
      simp only [refIn?] at hevent
      split at hevent
      · rename_i howner
        cases hevent
        rw [← howner]
        exact hmem
      · cases hevent
  · intro hmem
    exact ⟨_, hmem, by simp [refIn?]⟩

end WalkEvent

open WalkEvent (openAfter Nested entered? refIn? refsIn)

namespace Walk

variable {goesOn : List WalkEvent → Bool} {m : Model} {w w' : Walk} {id : TypeId}

/-- Enters a declaration. -/
def enter (w : Walk) (id : TypeId) : Walk :=
  ({ w with seen := id :: w.seen } : Walk).note (.enter id)

/-- What a walk has to do. -/
inductive Task where
  /-- To enter a declaration. -/
  | visit (id : TypeId)
  /-- To meet some references in a declaration that has been entered. -/
  | meet (owner : TypeId) (refs : List TypeRef)
  /-- To enter some declarations, one after the other. -/
  | through (ids : List TypeId)

/-- A walk becomes another by doing a task. -/
inductive Performs (goesOn : List WalkEvent → Bool) (m : Model) : Task → Walk → Walk → Prop
  | pass {id : TypeId} {w : Walk} (h : goesOn w.trace = false ∨ id ∈ w.seen) :
      Performs goesOn m (.visit id) w w
  | enter {id : TypeId} {w w' : Walk} (hgo : goesOn w.trace = true) (hnew : id ∉ w.seen)
      (hrefs : Performs goesOn m (.meet id (m.typeAt id).refs) (w.enter id) w') :
      Performs goesOn m (.visit id) w (w'.note (.leave id))
  | metAll {owner : TypeId} {w : Walk} : Performs goesOn m (.meet owner []) w w
  | plain {owner : TypeId} {r : TypeRef} {refs : List TypeRef} {w w' : Walk}
      (hplain : ∀ target, r.decl? = some target → (m.typeAt target).isAnonymous = false)
      (hrest : Performs goesOn m (.meet owner refs) (w.note (.ref owner r.element)) w') :
      Performs goesOn m (.meet owner (r :: refs)) w w'
  | inline {owner target : TypeId} {r : TypeRef} {refs : List TypeRef} {w w₁ w' : Walk}
      (htarget : r.decl? = some target) (hanon : (m.typeAt target).isAnonymous = true)
      (hvisit : Performs goesOn m (.visit target) (w.note (.ref owner r.element)) w₁)
      (hrest : Performs goesOn m (.meet owner refs) w₁ w') :
      Performs goesOn m (.meet owner (r :: refs)) w w'
  | walked {w : Walk} : Performs goesOn m (.through []) w w
  | next {id : TypeId} {ids : List TypeId} {w w₁ w' : Walk}
      (hvisit : Performs goesOn m (.visit id) w w₁)
      (hrest : Performs goesOn m (.through ids) w₁ w') :
      Performs goesOn m (.through (id :: ids)) w w'

/-! ## The walk of a model is performed -/

/-- Meets one reference of a declaration, and enters what it refers to if that has no name. -/
def meet (goesOn : List WalkEvent → Bool) (m : Model) (fuel : Nat) (id : TypeId) (w : Walk)
    (r : TypeRef) : Walk :=
  match r.element with
  | .decl target =>
    if (m.typeAt target).isAnonymous then visit goesOn m fuel target (w.note (.ref id r.element))
    else w.note (.ref id r.element)
  | _ => w.note (.ref id r.element)

theorem visit_succ (goesOn : List WalkEvent → Bool) (m : Model) (fuel : Nat) (id : TypeId)
    (w : Walk) : visit goesOn m (fuel + 1) id w =
      if !goesOn w.trace || w.seen.contains id then w
      else ((m.typeAt id).refs.foldl (meet goesOn m fuel id) (w.enter id)).note (.leave id) := by
  have hmeet : meet goesOn m fuel id = fun w r => _ := rfl
  rw [hmeet, visit]
  rfl

theorem meet_inline {fuel : Nat} {r : TypeRef} {target : TypeId} (htarget : r.decl? = some target)
    (hanon : (m.typeAt target).isAnonymous = true) (id : TypeId) (w : Walk) :
    meet goesOn m fuel id w r = visit goesOn m fuel target (w.note (.ref id r.element)) := by
  simp [meet, TypeRef.decl?_eq_some.mp htarget, hanon]

theorem meet_plain {fuel : Nat} {r : TypeRef}
    (hplain : ∀ target, r.decl? = some target → (m.typeAt target).isAnonymous = false)
    (id : TypeId) (w : Walk) : meet goesOn m fuel id w r = w.note (.ref id r.element) := by
  unfold meet
  split
  · rename_i target helement
    rw [hplain target (TypeRef.decl?_eq_some.mpr helement), if_neg Bool.false_ne_true]
  · rfl

theorem Performs.seen_subset {t : Task} (h : Performs goesOn m t w w') : w.seen ⊆ w'.seen := by
  induction h with
  | pass _ => exact List.Subset.refl _
  | enter _ _ _ ih => exact List.Subset.trans (List.subset_cons_self _ _) ih
  | metAll => exact List.Subset.refl _
  | plain _ _ ih => exact ih
  | inline _ _ _ _ ihvisit ihrest => exact List.Subset.trans ihvisit ihrest
  | walked => exact List.Subset.refl _
  | next _ _ ihvisit ihrest => exact List.Subset.trans ihvisit ihrest

/-- The fuel is enough if it is more than what is left to enter. A number that means nothing may be
entered besides, but leads nowhere. -/
theorem performs_visit {fuel : Nat} (hfuel : absentBelow m.types.size w.seen < fuel) :
    Performs goesOn m (.visit id) w (visit goesOn m fuel id w) := by
  induction fuel generalizing id w with
  | zero => omega
  | succ fuel ih =>
    have hmeet : ∀ (refs : List TypeRef) (w : Walk), absentBelow m.types.size w.seen < fuel →
        Performs goesOn m (.meet id refs) w (refs.foldl (meet goesOn m fuel id) w) := by
      intro refs
      induction refs with
      | nil => exact fun w _ => .metAll
      | cons r refs ihrefs =>
        intro w hfuel
        rw [List.foldl_cons]
        by_cases hinline : ∃ target, r.decl? = some target ∧ (m.typeAt target).isAnonymous = true
        · obtain ⟨target, htarget, hanon⟩ := hinline
          have hvisit : Performs goesOn m (.visit target) (w.note (.ref id r.element))
              (visit goesOn m fuel target (w.note (.ref id r.element))) := ih hfuel
          rw [meet_inline htarget hanon]
          refine .inline htarget hanon hvisit (ihrefs _ ?_)
          exact Nat.lt_of_le_of_lt (absentBelow_anti hvisit.seen_subset) hfuel
        · have hplain : ∀ target, r.decl? = some target →
              (m.typeAt target).isAnonymous = false := by
            intro target htarget
            exact Bool.eq_false_iff.mpr fun hanon => hinline ⟨target, htarget, hanon⟩
          rw [meet_plain hplain]
          exact .plain hplain (ihrefs _ hfuel)
    rw [visit_succ]
    by_cases hgo : goesOn w.trace = true
    · by_cases hseen : id ∈ w.seen
      · rw [if_pos (by simp [hseen])]
        exact .pass (Or.inr hseen)
      · rw [if_neg (by simp [hgo, hseen])]
        refine .enter hgo hseen ?_
        by_cases hid : id < m.types.size
        · have hless := absentBelow_cons_lt hid hseen
          exact hmeet _ _ (Nat.lt_of_lt_of_le hless (Nat.le_of_lt_succ hfuel))
        · rw [Model.refs_eq_nil_of_size_le (Nat.le_of_not_lt hid)]
          exact .metAll
    · rw [if_pos (by simp [hgo])]
      exact .pass (Or.inl (Bool.eq_false_iff.mpr hgo))

theorem performs_through (goesOn : List WalkEvent → Bool) (m : Model) (ids : List TypeId) :
    Performs goesOn m (.through ids) {} (through goesOn m ids) := by
  have hfold : ∀ w : Walk, Performs goesOn m (.through ids) w
      (ids.foldl (fun w id => visit goesOn m (m.types.size + 1) id w) w) := by
    induction ids with
    | nil => exact fun w => .walked
    | cons id ids ih =>
      intro w
      have hle := absentBelow_le m.types.size w.seen
      exact .next (performs_visit (Nat.lt_succ_of_le hle)) (ih _)
  exact hfold {}

/-! ## What is entered -/

/-- The declarations that are listed as entered are those of the events, and none is repeated. -/
structure Recorded (w : Walk) : Prop where
  seen : w.trace.filterMap entered? = w.seen
  nodup : w.seen.Nodup

theorem Performs.recorded {t : Task} (h : Performs goesOn m t w w') (hw : w.Recorded) :
    w'.Recorded := by
  induction h with
  | pass _ => exact hw
  | @enter id w w' _ hnew _ ih =>
    have hentered : (w.enter id).Recorded := by
      refine ⟨?_, List.nodup_cons.mpr ⟨hnew, hw.nodup⟩⟩
      show id :: w.trace.filterMap entered? = id :: w.seen
      rw [hw.seen]
    have hleft := ih hentered
    exact ⟨hleft.seen, hleft.nodup⟩
  | metAll => exact hw
  | plain _ _ ih => exact ih ⟨hw.seen, hw.nodup⟩
  | inline _ _ _ _ ihvisit ihrest => exact ihrest (ihvisit ⟨hw.seen, hw.nodup⟩)
  | walked => exact hw
  | next _ _ ihvisit ihrest => exact ihrest (ihvisit hw)

theorem Recorded.count_enter (h : w.Recorded) (id : TypeId) :
    w.trace.reverse.count (.enter id) = if id ∈ w.seen then 1 else 0 := by
  have hcount : w.trace.count (.enter id) = w.seen.count id := by
    rw [← h.seen]
    induction w.trace with
    | nil => rfl
    | cons event trace ih =>
      cases event with
      | enter id' => simp [entered?, List.count_cons, ih]
      | ref owner type => simpa [List.filterMap_cons, entered?] using ih
      | leave id' => simpa [List.filterMap_cons, entered?] using ih
  rw [List.count_reverse, hcount]
  split
  · rename_i hmem
    exact List.count_eq_one_of_mem h.nodup hmem
  · rename_i hmem
    exact List.count_eq_zero.mpr hmem

theorem Recorded.enter_mem (h : w.Recorded) (id : TypeId) :
    .enter id ∈ w.trace.reverse ↔ id ∈ w.seen := by
  rw [← List.count_pos_iff, h.count_enter]
  split <;> simp [*]

/-! ## How the events stand -/

/-- The declarations that are open, innermost first, if the events are in order so far. -/
def stack? (w : Walk) : Option (List TypeId) :=
  w.trace.reverse.foldlM openAfter []

theorem stack?_note (w : Walk) (event : WalkEvent) :
    (w.note event).stack? = w.stack?.bind fun stack => openAfter stack event := by
  simp [stack?, note]

/-- Where a task may be done: references are met in the innermost declaration. -/
def Task.Fits : Task → List TypeId → Prop
  | .meet owner _, stack => stack.head? = some owner
  | _, _ => True

/-- Whatever is entered in doing a task is left again. -/
theorem Performs.stack?_eq {t : Task} (h : Performs goesOn m t w w') {stack : List TypeId}
    (hw : w.stack? = some stack) (hfits : t.Fits stack) : w'.stack? = some stack := by
  induction h generalizing stack with
  | pass _ => exact hw
  | @enter id w w' _ _ _ ih =>
    have hentered : (w.enter id).stack? = some (id :: stack) := by
      show (({ w with seen := id :: w.seen } : Walk).note (.enter id)).stack? = _
      rw [stack?_note]
      show w.stack?.bind _ = _
      rw [hw]
      rfl
    rw [stack?_note, ih hentered rfl]
    simp [openAfter]
  | metAll => exact hw
  | plain _ _ ih =>
    refine ih ?_ hfits
    rw [stack?_note, hw]
    exact if_pos hfits
  | inline _ _ _ _ ihvisit ihrest =>
    refine ihrest (ihvisit ?_ trivial) hfits
    rw [stack?_note, hw]
    exact if_pos hfits
  | walked => exact hw
  | next _ _ ihvisit ihrest => exact ihrest (ihvisit hw trivial) trivial

/-! ## Which references are met -/

/-- Each declaration that has been entered has had its references met in order, up to those that are
still due. -/
def Owes (m : Model) (due : TypeId → List TypeRef) (w : Walk) : Prop :=
  ∀ id, refsIn id w.trace.reverse ++ due id =
    if id ∈ w.seen then (m.typeAt id).refs.map TypeRef.element else []

theorem refsIn_note (id : TypeId) (w : Walk) (event : WalkEvent) :
    refsIn id (w.note event).trace.reverse =
      refsIn id w.trace.reverse ++ (refIn? id event).toList := by
  simp [refsIn, note, List.filterMap_cons]
  cases refIn? id event <;> simp

/-- The references in `owner` that are due become fewer by one that is met. -/
theorem Owes.met {due : TypeId → List TypeRef} {owner : TypeId} {r : TypeRef} {refs : List TypeRef}
    (h : w.Owes m (Function.update due owner ((r :: refs).map TypeRef.element))) :
    (w.note (.ref owner r.element)).Owes m
      (Function.update due owner (refs.map TypeRef.element)) := by
  intro id
  refine Eq.trans ?_ (h id)
  rw [refsIn_note]
  by_cases howner : id = owner
  · subst howner
    simp [refIn?]
  · have hother : owner ≠ id := fun heq => howner heq.symm
    simp [refIn?, howner, hother]

/-- What a task leaves due of what was due: nothing of the references it is to meet. -/
def Task.Settles (m : Model) (w w' : Walk) : Task → Prop
  | .meet owner refs => ∀ due, w.Owes m (Function.update due owner (refs.map TypeRef.element)) →
      w'.Owes m (Function.update due owner [])
  | _ => ∀ due, w.Owes m due → w'.Owes m due

theorem Performs.settles {t : Task} (h : Performs goesOn m t w w') : t.Settles m w w' := by
  induction h with
  | pass _ => exact fun _ hw => hw
  | @enter id w w' _ hnew _ ih =>
    intro due hw
    -- nothing is due in a declaration that has not been entered
    have hnone : due id = [] := by
      have hid := hw id
      rw [if_neg hnew] at hid
      exact (List.append_eq_nil_iff.mp hid).2
    have hentered : (w.enter id).Owes m
        (Function.update due id ((m.typeAt id).refs.map TypeRef.element)) := by
      intro id'
      have hid := hw id'
      show refsIn id' (({ w with seen := id :: w.seen } : Walk).note (.enter id)).trace.reverse ++ _ =
        if id' ∈ id :: w.seen then _ else _
      rw [refsIn_note]
      by_cases heq : id' = id
      · subst heq
        rw [if_neg hnew, hnone, List.append_nil] at hid
        simp [refIn?, hid]
      · simpa [refIn?, heq] using hid
    have hleft := ih due hentered
    rw [← hnone, Function.update_eq_self] at hleft
    intro id'
    refine Eq.trans ?_ (hleft id')
    rw [refsIn_note]
    simp [refIn?]
  | metAll => exact fun _ hw => hw
  | plain _ _ ih => exact fun due hw => ih due hw.met
  | inline _ _ _ _ ihvisit ihrest => exact fun due hw => ihrest due (ihvisit _ hw.met)
  | walked => exact fun _ hw => hw
  | next _ _ ihvisit ihrest => exact fun due hw => ihrest due (ihvisit due hw)

/-! ## Nothing but what is reached is entered -/

/-- The task is about declarations of which `P` holds. -/
def Task.About (m : Model) (P : TypeId → Prop) : Task → Prop
  | .visit id => P id
  | .meet owner refs => P owner ∧ refs ⊆ (m.typeAt owner).refs
  | .through ids => ∀ id ∈ ids, P id

theorem Performs.seen_about {P : TypeId → Prop} (hP : ∀ id target, P id → m.Holds id target → P target)
    {t : Task} (h : Performs goesOn m t w w') (ht : t.About m P) (hw : ∀ id ∈ w.seen, P id) :
    ∀ id ∈ w'.seen, P id := by
  induction h with
  | pass _ => exact hw
  | @enter id w w' _ _ _ ih =>
    refine ih ⟨ht, List.Subset.refl _⟩ fun id' hid' => ?_
    rcases List.mem_cons.mp hid' with rfl | hold
    · exact ht
    · exact hw id' hold
  | metAll => exact hw
  | plain _ _ ih => exact ih ⟨ht.1, fun r hr => ht.2 (List.mem_cons_of_mem _ hr)⟩ hw
  | @inline owner target r refs _ _ _ htarget hanon _ _ ihvisit ihrest =>
    have hholds : m.Holds owner target := ⟨r, ht.2 List.mem_cons_self, htarget, hanon⟩
    exact ihrest ⟨ht.1, fun r hr => ht.2 (List.mem_cons_of_mem _ hr)⟩
      (ihvisit (hP owner target ht.1 hholds) hw)
  | walked => exact hw
  | next _ _ ihvisit ihrest =>
    exact ihrest (fun id hid => ht id (List.mem_cons_of_mem _ hid))
      (ihvisit (ht _ List.mem_cons_self) hw)

/-! ## All that is reached is entered -/

/-- What a task is to enter has been entered. -/
def Task.Reached (m : Model) (w : Walk) : Task → Prop
  | .visit id => id ∈ w.seen
  | .meet _ refs => ∀ r ∈ refs, ∀ target, r.decl? = some target →
      (m.typeAt target).isAnonymous = true → target ∈ w.seen
  | .through ids => ∀ id ∈ ids, id ∈ w.seen

/-- All that is written in a declaration has been entered. -/
def Covers (m : Model) (w : Walk) (id : TypeId) : Prop :=
  ∀ target, m.Holds id target → target ∈ w.seen

theorem Covers.mono (h : w.Covers m id) (hseen : w.seen ⊆ w'.seen) : w'.Covers m id :=
  fun target hholds => hseen (h target hholds)

/-- A walk that is not told to stop does what it has to, and covers all that it enters. A declaration
that was entered before may still be open, so nothing is said of it. -/
theorem Performs.covers {t : Task} (h : Performs (fun _ => true) m t w w') :
    t.Reached m w' ∧ ∀ id ∈ w'.seen, id ∈ w.seen ∨ w'.Covers m id := by
  induction h with
  | pass h =>
    exact ⟨h.resolve_left Bool.false_ne_true.symm, fun _ hid => Or.inl hid⟩
  | @enter id w w' _ _ hrefs ih =>
    obtain ⟨hmet, hcovers⟩ := ih
    refine ⟨hrefs.seen_subset List.mem_cons_self, fun id' hid' => ?_⟩
    rcases hcovers id' hid' with hold | hnew
    · rcases List.mem_cons.mp hold with rfl | hold
      · right
        rintro target ⟨r, hr, htarget, hanon⟩
        exact hmet r hr target htarget hanon
      · exact Or.inl hold
    · exact Or.inr hnew
  | metAll => exact ⟨fun r hr => absurd hr List.not_mem_nil, fun _ hid => Or.inl hid⟩
  | @plain owner r refs w w' hplain _ ih =>
    obtain ⟨hmet, hcovers⟩ := ih
    refine ⟨fun r' hr' target htarget hanon => ?_, hcovers⟩
    rcases List.mem_cons.mp hr' with rfl | hmem
    · rw [hplain target htarget] at hanon
      cases hanon
    · exact hmet r' hmem target htarget hanon
  | @inline owner target r refs w w₁ w' htarget _ _ hrest ihvisit ihrest =>
    obtain ⟨hentered, hcovers⟩ := ihvisit
    obtain ⟨hmet, hcovers'⟩ := ihrest
    refine ⟨fun r' hr' target' htarget' hanon => ?_, fun id hid => ?_⟩
    · rcases List.mem_cons.mp hr' with rfl | hmem
      · cases htarget.symm.trans htarget'
        exact hrest.seen_subset hentered
      · exact hmet r' hmem target' htarget' hanon
    · rcases hcovers' id hid with hold | hnew
      · exact (hcovers id hold).imp_right fun h => h.mono hrest.seen_subset
      · exact Or.inr hnew
  | walked => exact ⟨fun id hid => absurd hid List.not_mem_nil, fun _ hid => Or.inl hid⟩
  | @next id ids w w₁ w' _ hrest ihvisit ihrest =>
    obtain ⟨hentered, hcovers⟩ := ihvisit
    obtain ⟨hall, hcovers'⟩ := ihrest
    refine ⟨fun id' hid' => ?_, fun id' hid' => ?_⟩
    · rcases List.mem_cons.mp hid' with rfl | hmem
      · exact hrest.seen_subset hentered
      · exact hall id' hmem
    · rcases hcovers' id' hid' with hold | hnew
      · exact (hcovers id' hold).imp_right fun h => h.mono hrest.seen_subset
      · exact Or.inr hnew

/-- A whole walk that is not told to stop enters exactly what is reached. -/
theorem Performs.mem_seen {ids : List TypeId} (h : Performs (fun _ => true) m (.through ids) {} w) :
    id ∈ w.seen ↔ m.Within ids id := by
  constructor
  · refine fun hid => h.seen_about (P := m.Within ids) ?_ ?_ ?_ id hid
    · rintro id target ⟨start, hstart, hpath⟩ hholds
      exact ⟨start, hstart, hpath.tail hholds⟩
    · exact fun id hid => ⟨id, hid, .refl⟩
    · exact fun id hid => absurd hid List.not_mem_nil
  · rintro ⟨start, hstart, hpath⟩
    obtain ⟨hall, hcovers⟩ := h.covers
    induction hpath with
    | refl => exact hall start hstart
    | tail _ hholds ih => exact (hcovers _ ih).resolve_left List.not_mem_nil _ hholds

/-! ## Whole walks -/

/-- The events are those of a walk that came to an end, in which every declaration that was entered
was left and none was entered twice. -/
structure Orderly (goesOn : List WalkEvent → Bool) (m : Model) (ids : List TypeId)
    (events : List WalkEvent) : Prop where
  ended : ∃ w, Performs goesOn m (.through ids) {} w ∧ events = w.trace.reverse
  nested : Nested events
  once : ∀ id, events.count (.enter id) ≤ 1

/-- What is entered is what is reached, and all references in it are met in order, without arrays
around them. Nothing is met in what is not entered. -/
structure Exhaustive (m : Model) (ids : List TypeId) (events : List WalkEvent) : Prop where
  entered : ∀ id, events.count (.enter id) = 1 ↔ m.Within ids id
  refs : ∀ id, refsIn id events =
    if .enter id ∈ events then (m.typeAt id).refs.map TypeRef.element else []

theorem recorded_empty : Recorded {} :=
  ⟨rfl, List.nodup_nil⟩

theorem Performs.orderly {ids : List TypeId} (h : Performs goesOn m (.through ids) {} w) :
    Orderly goesOn m ids w.trace.reverse where
  ended := ⟨w, h, rfl⟩
  nested := h.stack?_eq rfl trivial
  once id := by
    rw [(h.recorded recorded_empty).count_enter]
    split <;> omega

theorem Performs.exhaustive {ids : List TypeId}
    (h : Performs (fun _ => true) m (.through ids) {} w) : Exhaustive m ids w.trace.reverse := by
  have hrecorded := h.recorded recorded_empty
  refine ⟨fun id => ?_, fun id => ?_⟩
  · rw [hrecorded.count_enter, ← h.mem_seen]
    split <;> simp [*]
  · have howes := h.settles (fun _ => []) (by intro id; simp [refsIn]) id
    rw [List.append_nil] at howes
    simp only [howes, hrecorded.enter_mem]

end Walk

namespace Model

/-- Every walk through a module or a declaration comes to an end, whenever it is told to stop, and
leaves what it enters. If it is not told to stop, it enters just what is written there. -/
theorem walk_visits_what_is_written (m : Model) :
    (∀ here,
      (∀ goesOn, Walk.Orderly goesOn m (m.moduleAt here).types (m.walkModule here goesOn)) ∧
        Walk.Exhaustive m (m.moduleAt here).types (m.walkModule here fun _ => true)) ∧
    ∀ id,
      (∀ goesOn, Walk.Orderly goesOn m [id] (m.walkType id goesOn)) ∧
        Walk.Exhaustive m [id] (m.walkType id fun _ => true) := by
  refine ⟨fun here => ⟨fun goesOn => ?_, ?_⟩, fun id => ⟨fun goesOn => ?_, ?_⟩⟩
  · exact (Walk.performs_through goesOn m _).orderly
  · exact (Walk.performs_through _ m _).exhaustive
  · exact (Walk.performs_through goesOn m [id]).orderly
  · exact (Walk.performs_through _ m [id]).exhaustive

-- an order holds items in arrays, an item holds its parts, and these lead back to both
example :
    let m : Model :=
      { types := #[
          { TypeDecl.ofSchema 0 (some "Order") .interface with
            members := [.ofSchema "item" .element (.array (.decl 1))] },
          { TypeDecl.ofSchema 0 none .interface with
            members := [.ofSchema "part" .element (.decl 2), .ofSchema "twin" .element (.decl 1)] },
          { TypeDecl.ofSchema 0 none .union with
            variants := [.array (.array (.decl 1)), .decl 0] }] }
    m.walkType 0 (fun _ => true) =
      [.enter 0, .ref 0 (.decl 1), .enter 1, .ref 1 (.decl 2), .enter 2, .ref 2 (.decl 1),
        .ref 2 (.decl 0), .leave 2, .ref 1 (.decl 1), .leave 1, .leave 0] := by
  decide

end Model

end XsdTypes
