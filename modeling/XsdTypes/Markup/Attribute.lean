import XsdTypes.Markup.Reference

/-!
# Attributes of a tag

After its name, the content of a tag is a list of keys with quoted values. A key is at least one
character long, may itself be an equals sign, and ends at the next equals sign or white space. No
space is needed between a value and the next key. White space in markup is only blank, tab, line
feed and carriage return.
-/

namespace XsdTypes.Markup

/-- White space between the parts of a tag. -/
def isSpace (c : Char) : Bool :=
  c == ' ' || c == '\t' || c == '\n' || c == '\r'

/-- A place in the content of a tag. -/
structure Cursor where
  /-- The number of bytes before the place. -/
  offset : Nat
  /-- The characters from the place on. -/
  rest : List Char

namespace Cursor

/-- The characters that satisfy `p` and the place after them. -/
def span (p : Char → Bool) (c : Cursor) : List Char × Cursor :=
  let run := c.rest.takeWhile p
  (run, ⟨c.offset + Chars.byteLength run, c.rest.dropWhile p⟩)

/-- The next place that holds no white space. -/
def skipSpace (c : Cursor) : Cursor :=
  (c.span isSpace).2

/-- The place after the character `d`, which stands here. -/
def after (c : Cursor) (d : Char) (rest : List Char) : Cursor :=
  ⟨c.offset + d.utf8Size, rest⟩

end Cursor

/-- An attribute as written: the key, where it starts, and the value with its references. -/
structure RawAttribute where
  /-- The key. -/
  key : List Char
  /-- The byte at which the key starts. -/
  position : Nat
  /-- The text between the quotes. -/
  value : List Char

/-- Reads a value from its opening quote on. -/
def quotedValue (start : Cursor) : Except AttributeFault (List Char × Cursor) :=
  match start.skipSpace with
  | ⟨offset, []⟩ => .error (.noValue offset)
  | ⟨offset, quote :: rest⟩ =>
    if quote = '"' ∨ quote = '\'' then
      match (Cursor.mk (offset + 1) rest).span (· != quote) with
      | (_, ⟨offset, []⟩) => .error (.unclosed offset quote)
      | (value, ⟨offset, _ :: rest⟩) => .ok (value, ⟨offset + 1, rest⟩)
    else .error (.unquoted offset)

/-- Reads the next attribute, if there is one. `earlier` are the keys before it with their
positions. -/
def rawAttribute? (earlier : List (List Char × Nat)) (start : Cursor) :
    Except AttributeFault (Option (RawAttribute × Cursor)) :=
  match start.skipSpace with
  | ⟨_, []⟩ => .ok none
  | ⟨position, c :: rest⟩ =>
    let (run, stop) :=
      (Cursor.mk (position + c.utf8Size) rest).span fun d => d != '=' && !isSpace d
    let key := c :: run
    match stop.skipSpace with
    | ⟨_, '=' :: rest⟩ =>
      match earlier.lookup key with
      | some previous => .error (.repeated position previous)
      | none => do
        let (value, stop) ← quotedValue ⟨stop.skipSpace.offset + 1, rest⟩
        return some (⟨key, position, value⟩, stop)
    | ⟨offset, _⟩ => .error (.noEquals offset)

/-- Reads at most `fuel` attributes, one after the other, with the references in each value
replaced before the next one is read. -/
def attributesFrom : Nat → List (List Char × Nat) → Cursor → Except Fault (List (String × String))
  | 0, _, _ => .ok []
  | fuel + 1, earlier, start => do
    match ← (rawAttribute? earlier start).mapError .attributes with
    | none => return []
    | some (raw, stop) =>
      let value ← (unescape raw.value).mapError .reference
      let rest ← attributesFrom fuel ((raw.key, raw.position) :: earlier) stop
      return (String.ofList raw.key, String.ofList value) :: rest

/-- The name of a tag and its attributes, from the content of the tag. The name goes up to the
first white space and may be empty. -/
def tagParts (content : List Char) : Except Fault (String × List (String × String)) := do
  let (name, stop) := (Cursor.mk 0 content).span fun c => !isSpace c
  let attributes ← attributesFrom content.length [] stop
  return (String.ofList name, attributes)

end XsdTypes.Markup
