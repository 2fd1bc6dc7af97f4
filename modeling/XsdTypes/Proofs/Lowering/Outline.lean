import XsdTypes.Lowering.Types
import XsdTypes.Proofs.Arrays

/-!
# Outlines of members

What becomes of the occurrences in the content of a type does not depend on the types of the members.
The outline of a member is all that is left of it without its type, its identifier and its
documentation, and the outlines of all members can be worked out from the content alone.
-/

namespace XsdTypes

/-- What a member says of occurrences. -/
structure Outline where
  /-- What it is in the schema. -/
  kind : MemberKind
  /-- The name in the schema. -/
  xmlName : String
  /-- Whether it may be absent. -/
  optional : Bool
  /-- Whether there may be several. -/
  isArray : Bool
  deriving DecidableEq, Repr

/-- The outline of a member. -/
def Member.outline (m : Member) : Outline :=
  ⟨m.kind, m.xmlName, m.optional, m.type.isArray⟩

namespace Outline

/-- The outline with another occurrence of its name counted in. -/
def fold (o other : Outline) : Outline :=
  { o with
    isArray := o.isArray || o.kind = .element
    optional := o.optional && other.optional }

/-- Adds an outline to those before it. -/
def push (new : Outline) : List Outline → List Outline
  | [] => [new]
  | o :: os =>
    if o.kind = new.kind ∧ o.xmlName = new.xmlName then o.fold new :: os else o :: push new os

end Outline

namespace Lowering

/-- The outline of the member that a declaration in expanded content becomes. -/
def Contribution.outline (c : Contribution) : Outline where
  kind := if c.declaration.space = .attr then .attr else .element
  xmlName := localName c.declaration
  optional := c.occurs.min.val = 0
  isArray := c.declaration.space ≠ .attr && c.occurs.max.isMany

/-- The outlines that content adds to those before it. -/
def outlines (content : List Contribution) (before : List Outline) : List Outline :=
  content.foldl (fun os c => Outline.push c.outline os) before

theorem fold_outline (m other : Member) :
    (Lowering.fold m other).outline = m.outline.fold other.outline := by
  unfold Lowering.fold Outline.fold Member.outline
  cases hk : m.kind <;> cases ht : m.type <;> simp [TypeRef.isArray]

theorem pushMember_outline (new : Member) (ms : List Member) :
    (pushMember new ms).map Member.outline = Outline.push new.outline (ms.map Member.outline) := by
  induction ms with
  | nil => rfl
  | cons m ms ih =>
    rw [pushMember, List.map_cons, Outline.push]
    have hcond : (m.outline.kind = new.outline.kind ∧ m.outline.xmlName = new.outline.xmlName) =
        (m.kind = new.kind ∧ m.xmlName = new.xmlName) := rfl
    simp only [hcond]
    split
    · rw [List.map_cons, fold_outline]
    · rw [List.map_cons, ih]

/-- The declaration is what a type becomes: the members of a complex type are those that its content
asks for, apart from the text of simple or mixed content. -/
def IsLowered (g : Graph) (node : NodeId) (decl : TypeDecl) : Prop :=
  (g.nodeAt node).tag = .complexType →
    ∃ before after : List Outline, (∀ o ∈ before ++ after, o.kind = .content) ∧
      decl.members.map Member.outline = outlines (contentOf g node) before ++ after

end Lowering

end XsdTypes
