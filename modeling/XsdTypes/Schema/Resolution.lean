import XsdTypes.Schema.Reading

/-!
# Binding references

When all documents have been read, the names in the nodes are bound to the nodes they mean. What a
node holds afterwards depends on the graph and on nothing that binding changes, so the order in
which nodes are bound does not matter.
-/

namespace XsdTypes.Resolution

/-- The type declared directly within a node. -/
def inlineType? (g : Graph) (id : NodeId) : Option NodeId :=
  (g.nodeAt id).ownScope.bind fun scope =>
    ((g.scopeAt scope).anonymous .type).head?.map (·.node)

/-- The simple types directly within a node, in order. -/
def simpleTypes (g : Graph) (id : NodeId) : List NodeId :=
  (g.nodeAt id).children.filter fun child => (g.nodeAt child).tag = .simpleType

/-- The node of a built-in type. -/
def builtin (g : Graph) (id : NodeId) (localName : String) : Except SchemaError NodeId :=
  match g.builtin? localName with
  | some node => .ok node
  | none => .error (.unresolved .type (QName.schema localName) (g.location id))

/-- Binds the names of an element or an attribute. The type it names comes first, then the type
within it, then the declaration it refers to, and last the built-in type `fallback`. -/
def bindAscription (g : Graph) (id : NodeId) (space : SymbolSpace) (fallback : String)
    (a : Ascription) : Except SchemaError Ascription := do
  match a.typeName, inlineType? g id, a.refName with
  | some name, _, _ => return { a with typeNode := some (← g.resolveFrom id (.type, name)) }
  | none, some inline, _ => return { a with typeNode := some inline }
  | none, none, some name => return { a with target := some (← g.resolveGlobal id (space, name)) }
  | none, none, none => return { a with typeNode := some (← builtin g id fallback) }

/-- What a node holds when its names are bound. -/
def bind (g : Graph) (id : NodeId) : Except SchemaError Payload := do
  match (g.nodeAt id).payload with
  | .element a => return .element (← bindAscription g id .element "anyType" a)
  | .attr a prohibited =>
    return .attr (← bindAscription g id .attr "anySimpleType" a) prohibited
  | .derivation d =>
    match d.base with
    | some base => return .derivation { d with baseNode := some (← g.resolveFrom id (.type, base)) }
    | none => return .derivation { d with baseNode := (simpleTypes g id).head? }
  | .list itemType _ =>
    match itemType, (simpleTypes g id).head? with
    | some name, _ => return .list itemType (some (← g.resolveFrom id (.type, name)))
    | none, some inline => return .list itemType (some inline)
    | none, none => return .list itemType (some (← builtin g id "anySimpleType"))
  | .union memberTypes _ =>
    let named ← memberTypes.mapM fun name => g.resolveFrom id (.type, name)
    return .union memberTypes (named ++ simpleTypes g id)
  | .group (some name) _ =>
    let space := if (g.nodeAt id).tag = .group then .group else .attrGroup
    return .group (some name) (some (← g.resolveGlobal id (space, name)))
  | payload => return payload

/-- Binds the names of one node, unless that has been done. -/
def resolveNode (g : Graph) (id : NodeId) : Except Halt Graph :=
  if (g.nodeAt id).resolved then .ok g
  else
    match bind g id with
    | .error error => .error ⟨error, g⟩
    | .ok payload => .ok (g.modifyNode id fun node => { node with payload, resolved := true })

/-- Binds the names of the nodes from `first` on, in the order of their creation. -/
def resolveAll (g : Graph) (first : NodeId) : Except Halt Graph :=
  (List.range' first (g.nodes.size - first)).foldlM resolveNode g

end XsdTypes.Resolution
