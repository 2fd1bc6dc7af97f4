/-!
# Characters with their places

Indentation, the ends of lines and the distance between two characters all matter in YAML, so a text
is first turned into characters that know where they stand. On the way every end of a line becomes
one character: a carriage return with the line feed after it, either of them alone, and the
next-line character all turn into a line feed.
-/

namespace XsdTypes.Config.Yaml

/-- A character and its place. -/
structure Spot where
  /-- The character. -/
  char : Char
  /-- The number of lines before it. -/
  line : Nat
  /-- The number of characters before it on its line. -/
  column : Nat
  /-- The number of bytes before it in the text. -/
  index : Nat
  deriving DecidableEq, Repr, Inhabited

/-- The mark that may begin a line and says nothing. -/
def byteOrderMark : Char := '\ufeff'

/-- Whether a character ends a line. -/
def isBreak (c : Char) : Bool :=
  c == '\n' || c == '\u2028' || c == '\u2029'

/-- Whether a character separates words on a line. -/
def isBlank (c : Char) : Bool :=
  c == ' ' || c == '\t'

/-- Whether a character may stand in a text at all. -/
def isAllowed (c : Char) : Bool :=
  let n := c.toNat
  c == '\t' || c == '\n' || c == '\r' || (0x20 ≤ n && n ≤ 0x7E) || n == 0x85 ||
    (0xA0 ≤ n && n != 0xFFFE && n != 0xFFFF)

/-- Whether a character may be part of a plain name: an anchor or the handle of a tag. -/
def isWord (c : Char) : Bool :=
  c.isAlphanum || c == '_' || c == '-'

/-- The characters of a text with their places, the first one standing at the given place. -/
def spotsFrom (line column index : Nat) : List Char → List Spot
  | [] => []
  | '\r' :: '\n' :: rest => ⟨'\n', line, column, index⟩ :: spotsFrom (line + 1) 0 (index + 2) rest
  | c :: rest =>
    let next := index + c.utf8Size
    let c := if c == '\r' || c == '\u0085' then '\n' else c
    let here : Spot := ⟨c, line, column, index⟩
    if isBreak c then here :: spotsFrom (line + 1) 0 next rest
    else here :: spotsFrom line (column + 1) next rest

/-- The characters of a text with their places. -/
def spots (cs : List Char) : List Spot :=
  spotsFrom 0 0 0 cs

/-- The characters without their places. -/
def chars (cs : List Spot) : List Char :=
  cs.map Spot.char

/-- Whether a word is over: at the end of the text, at a blank or at the end of a line. -/
def endsWord : List Spot → Bool
  | [] => true
  | s :: _ => isBlank s.char || isBreak s.char

/-- Whether the text starts with three times the given character and then a word ends. -/
def isTriple (c : Char) : List Spot → Bool
  | x :: y :: z :: rest => x.char == c && y.char == c && z.char == c && endsWord rest
  | _ => false

/-- Whether a line starts here with the mark that begins or ends a document. -/
def isDocumentMark (cs : List Spot) : Bool :=
  cs.head?.any (·.column == 0) && (isTriple '-' cs || isTriple '.' cs)

end XsdTypes.Config.Yaml
