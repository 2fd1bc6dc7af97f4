import XsdTypes.Schema.Graph

/-!
# Expanding groups

The content of a type or a group is what is declared in its scope, with every reference to a group
replaced by the content of the group, its occurrences multiplied by those of the reference. A group
that is being expanded is passed over, so that groups may refer to each other in circles.
-/

namespace XsdTypes.Lowering

/-- A declaration in expanded content, with its occurrences there. -/
structure Contribution where
  /-- The declaration. -/
  declaration : Declaration
  /-- The occurrences, those of the references that lead to it counted in. -/
  occurs : Occurrence
  deriving DecidableEq, Repr

/-- The group that a reference means. -/
def referredGroup? (g : Graph) (reference : NodeId) : Option NodeId :=
  match (g.nodeAt reference).payload with
  | .group _ target => target
  | _ => none

/-- The elements and attributes of a scope with all groups expanded. `factor` counts the references
that lead to the scope and `path` lists the groups being expanded, of which there are at most
`fuel`. -/
def expand (g : Graph) : Nat → ScopeId → Occurrence → List NodeId → List Contribution
  | 0, _, _, _ => []
  | fuel + 1, scope, factor, path =>
    (g.scopeAt scope).members.flatMap fun d =>
      let occurs := d.occurs.times factor
      match d.space with
      | .element | .attr => [⟨d, occurs⟩]
      | .groupRef | .attrGroupRef =>
        match referredGroup? g d.node with
        | none => []
        | some group =>
          if path.contains group then []
          else
            match (g.nodeAt group).ownScope with
            | some inner => expand g fuel inner occurs (group :: path)
            | none => []
      | .type | .group | .attrGroup => []

/-- The elements and attributes of a type with all groups expanded. -/
def contentOf (g : Graph) (id : NodeId) : List Contribution :=
  match (g.nodeAt id).ownScope with
  | some scope => expand g (g.nodes.size + 1) scope .once [id]
  | none => []

end XsdTypes.Lowering
