import XsdTypes.Lowering.Expansion
import XsdTypes.Proofs.Schema.Occurrence
import XsdTypes.Proofs.Schema.Loaded

/-!
# Content models

The content model of a type or a group is made of particles, and each particle occurs as often as its
attributes say. `Allows` says which words of elements a content model allows: a sequence is a word of
each of its particles one after the other, a choice is a word of one of them, `all` is a word of each
in any order, and a reference to a group is a word of the group. Wildcards are passed over.
-/

namespace XsdTypes

/-- The tags that are parts of content models, and those between a complex type and its content
model. -/
def Tag.isParticle : Tag → Bool
  | .element | .any | .sequence | .choice | .all | .group => true
  | tag => tag.wraps

/-- The tags whose parts follow each other. -/
def Tag.isSeries : Tag → Bool
  | .complexType | .group | .sequence => true
  | tag => tag.wraps

/-- The occurrences that the attributes of a node give; each bound is one by default. -/
def Node.givenOccurs (n : Node) : Occurrence where
  min := ((n.attribute? "minOccurs").bind Count.parse?).getD Count.one
  max := ((n.attribute? "maxOccurs").bind Bound.parse?).getD Bound.one

/-- How often a particle may occur where it stands. -/
def Node.ownOccurs (n : Node) : Occurrence :=
  if n.tag.wraps then .once else n.givenOccurs

/-- Whether so many occurrences are in the range. -/
def Occurrence.allows (occurs : Occurrence) (k : Nat) : Prop :=
  occurs.min.val ≤ k ∧
    match occurs.max with
    | .atMost n => k ≤ n.val
    | .unbounded => True

instance : (occurs : Occurrence) → (k : Nat) → Decidable (occurs.allows k)
  | ⟨min, .atMost n⟩, k => inferInstanceAs (Decidable (min.val ≤ k ∧ k ≤ n.val))
  | ⟨min, .unbounded⟩, k => inferInstanceAs (Decidable (min.val ≤ k ∧ True))

namespace Graph

/-- The particles directly within a node, in order. -/
def particles (g : Graph) (n : NodeId) : List NodeId :=
  (g.nodeAt n).children.filter fun child => (g.nodeAt child).tag.isParticle

/-- The words of elements that one occurrence of a node allows. -/
inductive Allows (g : Graph) : NodeId → List QName → Prop
  | element {n : NodeId} {name : QName} (htag : (g.nodeAt n).tag = .element)
      (hname : (g.nodeAt n).name = some name) : Allows g n [name]
  | wildcard {n : NodeId} (htag : (g.nodeAt n).tag = .any) : Allows g n []
  | series {n : NodeId} {words : NodeId → List (List QName)}
      (htag : (g.nodeAt n).tag.isSeries = true)
      (hdefinition : Lowering.referredGroup? g n = none)
      (hoccurs : ∀ c ∈ g.particles n, (g.nodeAt c).ownOccurs.allows (words c).length)
      (hwords : ∀ c ∈ g.particles n, ∀ w ∈ words c, Allows g c w) :
      Allows g n ((g.particles n).flatMap fun c => (words c).flatten)
  | all {n : NodeId} {words : NodeId → List (List QName)} {word : List QName}
      (htag : (g.nodeAt n).tag = .all)
      (hoccurs : ∀ c ∈ g.particles n, (g.nodeAt c).ownOccurs.allows (words c).length)
      (hwords : ∀ c ∈ g.particles n, ∀ w ∈ words c, Allows g c w)
      (horder : word.Perm ((g.particles n).flatMap fun c => (words c).flatten)) : Allows g n word
  | choice {n c : NodeId} {words : List (List QName)} (htag : (g.nodeAt n).tag = .choice)
      (hbranch : c ∈ g.particles n) (hoccurs : (g.nodeAt c).ownOccurs.allows words.length)
      (hwords : ∀ w ∈ words, Allows g c w) : Allows g n words.flatten
  | reference {n target : NodeId} {word : List QName} (htag : (g.nodeAt n).tag = .group)
      (htarget : Lowering.referredGroup? g n = some target) (hword : Allows g target word) :
      Allows g n word

/-- One node is a particle directly within the other. -/
def IsPart (g : Graph) (n c : NodeId) : Prop :=
  c ∈ g.particles n

/-- The content model of one node refers to the other, a group. -/
def RefersTo (g : Graph) (n target : NodeId) : Prop :=
  ∃ reference, Relation.TransGen g.IsPart n reference ∧ (g.nodeAt reference).tag = .group ∧
    Lowering.referredGroup? g reference = some target

/-- No reference to a group, in the content model of a node and in those it refers to, is circular or
has particles of its own. -/
structure PlainGroups (g : Graph) (n : NodeId) : Prop where
  acyclic : ∀ a, Relation.ReflTransGen g.RefersTo n a → ¬ Relation.TransGen g.RefersTo a a
  childless : ∀ a reference, Relation.ReflTransGen g.RefersTo n a →
    Relation.TransGen g.IsPart a reference → (g.nodeAt reference).tag = .group →
    g.particles reference = []

end Graph

end XsdTypes
