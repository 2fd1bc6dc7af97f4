import XsdTypes.Chars.Utf8

/-!
# Places in documents

A position is a line, a column and a byte offset; lines and columns count from one and columns
count bytes. A location is a position in a named document, with the tag being read if one is.
-/

namespace XsdTypes

/-- A position in a document. -/
structure Position where
  /-- The line, from one on. -/
  line : Nat
  /-- The column in bytes, from one on. -/
  column : Nat
  /-- The number of bytes before the position. -/
  offset : Nat
  deriving DecidableEq, Repr, Inhabited

namespace Position

/-- Walks over the characters before `offset`; `reached` is the number of bytes walked over, `line`
the current line and `start` the offset at which it starts. -/
def walk (offset : Nat) : (reached line start : Nat) → List Char → Position
  | reached, line, start, [] => ⟨line, min offset reached - start + 1, min offset reached⟩
  | reached, line, start, c :: cs =>
    if offset ≤ reached then ⟨line, offset - start + 1, offset⟩
    else if c = '\n' then walk offset (reached + 1) (line + 1) (reached + 1) cs
    else walk offset (reached + c.utf8Size) line start cs

/-- The position `offset` bytes into the text, or its end if the text is shorter. -/
def ofOffset (text : List Char) (offset : Nat) : Position :=
  walk offset 0 1 0 text

/-- The first position of a document. -/
def first : Position := ⟨1, 1, 0⟩

/-- Line and column, and the offset in brackets. -/
def text (p : Position) : String :=
  s!"{p.line}:{p.column} (byte {p.offset})"

end Position

/-- A position in a named document. -/
structure Location where
  /-- The document's URL or path. -/
  source : String
  /-- The position in the document. -/
  position : Position
  /-- The tag being read there. -/
  within : Option String := none
  deriving DecidableEq, Repr, Inhabited

/-- The document, the position and the tag. -/
def Location.text (l : Location) : String :=
  l.source ++ ":" ++ l.position.text ++
    match l.within with
    | some tag => " in <" ++ tag ++ ">"
    | none => ""

end XsdTypes
