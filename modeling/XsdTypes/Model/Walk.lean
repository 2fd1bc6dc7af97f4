import XsdTypes.Model.Basic

/-!
# Walks through a model

A walk enters a declaration, goes over the types it refers to, and enters those of them that have no
name, because they are written as a part of it. No declaration is entered twice. The result is the
trace of what was met. A walk may be told to stop, by what it has met so far: then it enters nothing
more, and goes on to leave what it has entered.
-/

namespace XsdTypes

/-- What a walk meets. -/
inductive WalkEvent where
  /-- It enters a declaration. -/
  | enter (id : TypeId)
  /-- It meets a reference to a type, without arrays, in a declaration. -/
  | ref (owner : TypeId) (type : TypeRef)
  /-- It leaves a declaration. -/
  | leave (id : TypeId)
  deriving DecidableEq, Repr

/-- A walk in progress. -/
structure Walk where
  /-- The declarations that have been entered. -/
  seen : List TypeId := []
  /-- What has been met, the latest first. -/
  trace : List WalkEvent := []
  deriving DecidableEq, Repr

namespace Walk

/-- Meets something. -/
def note (w : Walk) (event : WalkEvent) : Walk :=
  { w with trace := event :: w.trace }

/-- Enters a declaration and goes over it, unless it has been entered or the walk is to stop. At
most `fuel` declarations are entered within each other. -/
def visit (goesOn : List WalkEvent → Bool) (m : Model) : Nat → TypeId → Walk → Walk
  | 0, _, w => w
  | fuel + 1, id, w =>
    if !goesOn w.trace || w.seen.contains id then w
    else
      let entered := ({ w with seen := id :: w.seen } : Walk).note (.enter id)
      let walked := (m.typeAt id).refs.foldl
        (fun w ref =>
          let w := w.note (.ref id ref.element)
          match ref.element with
          | .decl target =>
            if (m.typeAt target).isAnonymous then visit goesOn m fuel target w else w
          | _ => w)
        entered
      walked.note (.leave id)

/-- The walk through some declarations, one after the other. -/
def through (goesOn : List WalkEvent → Bool) (m : Model) (ids : List TypeId) : Walk :=
  ids.foldl (fun w id => visit goesOn m (m.types.size + 1) id w) {}

end Walk

namespace Model

/-- What a walk through the named declarations of a module meets, in order. -/
def walkModule (m : Model) (id : ModuleId) (goesOn : List WalkEvent → Bool) : List WalkEvent :=
  (Walk.through goesOn m (m.moduleAt id).types).trace.reverse

/-- What a walk through a declaration meets, in order. -/
def walkType (m : Model) (id : TypeId) (goesOn : List WalkEvent → Bool) : List WalkEvent :=
  (Walk.through goesOn m [id]).trace.reverse

/-- The modules that own what a walk through a module meets. -/
def referencedModules (m : Model) (id : ModuleId) : List ModuleId :=
  (m.walkModule id fun _ => true).filterMap fun
    | .ref _ (.decl target) => some (m.typeAt target).owner
    | _ => none

/-- The other modules that a module depends on, in ascending order. -/
def dependencies (m : Model) (id : ModuleId) : List ModuleId :=
  let referenced := m.referencedModules id
  (List.range m.modules.size).filter fun other => other ≠ id && referenced.contains other

end Model

end XsdTypes
