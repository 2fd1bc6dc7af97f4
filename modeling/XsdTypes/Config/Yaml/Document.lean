import XsdTypes.Config.Yaml.Token

/-!
# Documents

Builds the content of a document from its tokens. A text holds one document, which may be empty. A
node may be given a name, by which later nodes refer to it. What a name means is a number: one that
is new to the document is the number of names before it, and so is one that is given again. So two
names can come to share a number, and then both mean the node that was given it last.
-/

namespace XsdTypes.Config.Yaml

/-- Where the reading of a document stands. -/
structure Reading where
  /-- The tokens that are left. -/
  tokens : List Token
  /-- The names that were given and their numbers, no name twice. -/
  names : List (String × Nat) := []
  /-- Which named node a number means, the latest first; the nodes are counted as they begin. -/
  numbers : List (Nat × Nat) := []
  /-- The named nodes that have been read. -/
  nodes : List (Nat × Value) := []
  /-- What the handles of tags stand for that the document gives a meaning. -/
  handles : List (String × TagName) := []

/-- The handles of tags that have a meaning in every document which gives them no other. -/
def standardHandles : List (String × TagName) :=
  [("!", Chars.bytes ['!']), ("!!", coreTag "")]

/-- A step of reading, which may fail. -/
abbrev Read := StateT Reading Option

namespace Read

/-- The next token, which stays. -/
def peek : Read (Option Token) :=
  return (← get).tokens.head?

/-- Goes past the next token. -/
def advance : Read Unit :=
  modify fun r => { r with tokens := r.tokens.drop 1 }

/-- Goes past the next token if it is the given one, and says whether it was. -/
def accept (t : Token) : Read Bool := do
  if (← peek) = some t then
    advance
    return true
  else return false

/-- The name or the tag of a node. -/
structure Properties where
  /-- The name by which the node is referred to. -/
  anchor? : Option String := none
  /-- The full tag. -/
  tag? : Option TagName := none

/-- The name of a tag up to its first zero byte. -/
def untilZero (name : TagName) : TagName :=
  name.takeWhile (· != 0)

/-- The full tag for a handle and what follows it. -/
def fullTag (handle : String) (suffix : TagName) : Read TagName := do
  if handle = "" then return untilZero suffix
  match ((← get).handles ++ standardHandles).lookup handle with
  | some expansion => return untilZero expansion ++ untilZero suffix
  | none => failure

/-- Reads the name and the tag of a node, in either order and each at most once. -/
def properties : Read Properties := do
  match ← peek with
  | some (.anchor name) =>
    advance
    match ← peek with
    | some (.tag handle suffix) =>
      advance
      return ⟨some name, some (← fullTag handle suffix)⟩
    | _ => return { anchor? := some name }
  | some (.tag handle suffix) =>
    advance
    match ← peek with
    | some (.anchor name) =>
      advance
      return ⟨some name, some (← fullTag handle suffix)⟩
    | _ => return { tag? := some (← fullTag handle suffix) }
  | _ => return {}

/-- Begins a node with a name, and gives the place of the node among those with names. -/
def beginNamed (name : String) : Read Nat := do
  let r ← get
  let number := r.names.length
  let place := r.numbers.length
  set { r with
    names := (name, number) :: r.names.filter (·.1 ≠ name)
    numbers := (number, place) :: r.numbers }
  return place

/-- Ends a node with a name. -/
def endNamed (place : Nat) (v : Value) : Read Unit :=
  modify fun r => { r with nodes := (place, v) :: r.nodes }

/-- The reference that a name is. -/
def resolve (name : String) : Read Value := do
  match (← get).names.lookup name with
  | some number => return .reference number
  | none => failure

/-- Whether the next token is one of those before which a node may be left out. -/
def isBefore (ends : List Token) : Read Bool := do
  match ← peek with
  | some t => return ends.contains t
  | none => return true

mutual

/-- Reads a node, within `fuel` nested or consecutive ones. `inBlock` says whether indentation may
begin a collection, and `mayDash` whether a list may stand at the column of the record around it. -/
def node (inBlock mayDash : Bool) : Nat → Read Value
  | 0 => failure
  | fuel + 1 => do
    match ← peek with
    | some (.reference name) =>
      advance
      resolve name
    | _ =>
      let p ← properties
      let place? ← p.anchor?.mapM beginNamed
      let next ← peek
      let v ←
        match next with
        | some (.scalar style text) =>
          advance
          pure (scalarValue style p.tag? text)
        | some .flowListStart =>
          advance
          pure (.list (← flowItems true fuel))
        | some .flowRecordStart =>
          advance
          pure (.record (← flowEntries true fuel))
        | some .blockListStart =>
          if inBlock then
            advance
            pure (.list (← blockItems fuel))
          else missing p
        | some .blockRecordStart =>
          if inBlock then
            advance
            pure (.record (← blockEntries fuel))
          else missing p
        | some .blockEntry =>
          if mayDash then pure (.list (← dashItems fuel)) else missing p
        | _ => missing p
      place?.forM (endNamed · v)
      return v
where
  /-- A node that is only announced by its name or tag. -/
  missing (p : Properties) : Read Value :=
    if p.anchor?.isSome || p.tag?.isSome then return scalarValue .plain p.tag? [] else failure

/-- Reads the items of a block list up to its end. -/
def blockItems : Nat → Read (List Value)
  | 0 => failure
  | fuel + 1 => do
    if ← accept .blockEnd then return []
    if ← accept .blockEntry then
      let v ← if ← isBefore [.blockEntry, .blockEnd] then pure absent else node true false fuel
      return v :: (← blockItems fuel)
    failure

/-- Reads the items of a block list that stands at the column of the record around it. -/
def dashItems : Nat → Read (List Value)
  | 0 => failure
  | fuel + 1 => do
    if ← accept .blockEntry then
      let v ←
        if ← isBefore [.blockEntry, .key, .value, .blockEnd] then pure absent
        else node true false fuel
      return v :: (← dashItems fuel)
    return []

/-- Reads the entries of a block record up to its end. -/
def blockEntries : Nat → Read (List (Value × Value))
  | 0 => failure
  | fuel + 1 => do
    if ← accept .blockEnd then return []
    if !(← accept .key) then failure
    let k ← if ← isBefore [.key, .value, .blockEnd] then pure absent else node true true fuel
    let v ←
      if ← accept .value then
        if ← isBefore [.key, .value, .blockEnd] then pure absent else node true true fuel
      else pure absent
    return (k, v) :: (← blockEntries fuel)

/-- Reads the items of a flow list up to its closing bracket. -/
def flowItems (isFirst : Bool) : Nat → Read (List Value)
  | 0 => failure
  | fuel + 1 => do
    if ← accept .flowListEnd then return []
    if !isFirst then
      if !(← accept .flowEntry) then failure
      if ← accept .flowListEnd then return []
    let v ←
      if ← accept .key then
        let ends := [.value, .flowEntry, .flowListEnd]
        let k ← if ← isBefore ends then pure absent else node false false fuel
        let v ← flowValue [.flowEntry, .flowListEnd] fuel
        pure (.record [(k, v)])
      else node false false fuel
    return v :: (← flowItems false fuel)

/-- Reads the entries of a flow record up to its closing brace. -/
def flowEntries (isFirst : Bool) : Nat → Read (List (Value × Value))
  | 0 => failure
  | fuel + 1 => do
    if ← accept .flowRecordEnd then return []
    if !isFirst then
      if !(← accept .flowEntry) then failure
      if ← accept .flowRecordEnd then return []
    let entry ←
      if ← accept .key then
        let ends := [.value, .flowEntry, .flowRecordEnd]
        let k ← if ← isBefore ends then pure absent else node false false fuel
        let v ← flowValue [.flowEntry, .flowRecordEnd] fuel
        pure (k, v)
      else
        let k ← node false false fuel
        pure (k, absent)
    return entry :: (← flowEntries false fuel)

/-- Reads the value of an entry inside a flow collection, if there is one. -/
def flowValue (ends : List Token) : Nat → Read Value
  | 0 => failure
  | fuel + 1 => do
    if ← accept .value then
      if ← isBefore ends then return absent else node false false fuel
    else return absent

end

/-- Reads directives. There is at most one for the version, and one for each handle. -/
def directives : Nat → Bool → Read Unit
  | 0, _ => failure
  | fuel + 1, hasVersion => do
    match ← peek with
    | some (.version major minor) =>
      if hasVersion || major ≠ 1 || (minor ≠ 1 && minor ≠ 2) then failure
      advance
      directives fuel true
    | some (.handle name expansion) =>
      if ((← get).handles.lookup name).isSome then failure
      modify fun r => { r with handles := (name, expansion) :: r.handles }
      advance
      directives fuel hasVersion
    | _ => return ()

/-- Goes past the marks that end a document. -/
def documentEnds : Nat → Read Unit
  | 0 => return ()
  | fuel + 1 => do
    if ← accept .documentEnd then documentEnds fuel

/-- Reads the only document of a text. -/
def document (fuel : Nat) : Read Value := do
  let v ←
    match ← peek with
    | none => pure absent
    | some (.version ..) | some (.handle ..) | some .documentStart => do
      directives fuel false
      if !(← accept .documentStart) then failure
      match ← peek with
      | none | some .documentStart | some .documentEnd | some (.version ..) | some (.handle ..) =>
        pure absent
      | _ => node true false fuel
    | _ => node true false fuel
  documentEnds fuel
  if (← peek).isSome then failure
  return v

end Read

/-- What the document holds that a text is. -/
def read? (text : String) : Option Content :=
  match tokens? text with
  | none => none
  | some tokens =>
    ((Read.document (3 * tokens.length + 3)).run { tokens }).map fun (root, r) =>
      { root
        meanings := r.numbers.filterMap fun (number, place) =>
          (r.nodes.lookup place).map fun v => (number, v) }

end XsdTypes.Config.Yaml
