import XsdTypes.Chars.Numeral
import XsdTypes.Chars.Utf8
import XsdTypes.Config.Value
import XsdTypes.Config.Yaml.Spot

/-!
# Scalars

A scalar is written plainly, between quotes, or as a block of lines. Where a plain or quoted scalar
goes over several lines, the blanks around the end of a line are dropped, one end of line becomes a
space, and of several the first is dropped. What a scalar may be taken for depends on how it is
written and on its tag.
-/

namespace XsdTypes.Config.Yaml

/-! ## Folding -/

/-- The blanks and ends of lines since the last character of a scalar. -/
structure Gap where
  /-- The blanks, as long as the line goes on. -/
  blanks : List Char := []
  /-- Whether the line is over. -/
  isBroken : Bool := false
  /-- The first end of a line, unless it was escaped. -/
  first : Option Char := none
  /-- The ends of lines after the first. -/
  more : List Char := []

namespace Gap

/-- Whether there is nothing between the last character and the next. -/
def isEmpty (g : Gap) : Bool :=
  g.blanks.isEmpty && !g.isBroken

/-- The gap with a blank after it. -/
def addBlank (g : Gap) (c : Char) : Gap :=
  if g.isBroken then g else { g with blanks := g.blanks ++ [c] }

/-- The gap with an end of a line after it. -/
def addBreak (g : Gap) (c : Char) : Gap :=
  if g.isBroken then { g with more := g.more ++ [c] } else { isBroken := true, first := some c }

/-- What the gap stands for. -/
def text (g : Gap) : List Char :=
  if g.isBroken then
    match g.first with
    | none => g.more
    | some c => if c == '\n' then (if g.more.isEmpty then [' '] else g.more) else c :: g.more
  else g.blanks

end Gap

/-! ## Plain scalars -/

/-- Whether a character is one of those that bound the parts of a flow collection. -/
def isFlowMark (c : Char) : Bool :=
  c == ',' || c == '[' || c == ']' || c == '\x7b' || c == '\x7d'

/-- What was read of a scalar: its text, whether a line ended after it, and the rest. -/
structure PlainText where
  /-- The characters. -/
  text : List Char
  /-- Whether at least one line ended between the scalar and the rest. -/
  brokeLine : Bool
  /-- What follows. -/
  rest : List Spot

/-- Reads a plain scalar. Outside flow collections its later lines start at the column `least` or
after it. -/
def plain (inFlow : Bool) (least : Nat) (gap : Gap) : List Spot → Option PlainText
  | [] => some ⟨[], gap.isBroken, []⟩
  | s :: rest =>
    if isBlank s.char then
      if gap.isBroken && s.column < least && s.char == '\t' then none
      else plain inFlow least (gap.addBlank s.char) rest
    else if isBreak s.char then plain inFlow least (gap.addBreak s.char) rest
    else
      let startsAnew := !gap.isEmpty &&
        ((!inFlow && s.column < least) || isDocumentMark (s :: rest) || s.char == '#')
      let isColon := s.char == ':'
      let isOver := (isColon && endsWord rest) || (inFlow && isFlowMark s.char)
      let isStray := isColon && inFlow && rest.head?.any fun n => isFlowMark n.char || n.char == '?'
      if startsAnew then some ⟨[], gap.isBroken, s :: rest⟩
      else if isStray then none
      else if isOver then some ⟨[], gap.isBroken, s :: rest⟩
      else (plain inFlow least {} rest).map fun p => { p with text := gap.text ++ s.char :: p.text }

/-! ## Quoted scalars -/

/-- The character that a one-letter escape stands for. -/
def escape? : Char → Option Char
  | '0' => some '\x00'
  | 'a' => some '\x07'
  | 'b' => some '\x08'
  | 't' => some '\t'
  | '\t' => some '\t'
  | 'n' => some '\n'
  | 'v' => some '\x0b'
  | 'f' => some '\x0c'
  | 'r' => some '\r'
  | 'e' => some '\x1b'
  | ' ' => some ' '
  | '"' => some '"'
  | '/' => some '/'
  | '\\' => some '\\'
  | 'N' => some '\u0085'
  | '_' => some '\u00a0'
  | 'L' => some '\u2028'
  | 'P' => some '\u2029'
  | _ => none

/-- The number of hexadecimal digits after the letter of an escape. -/
def codeLength? : Char → Option Nat
  | 'x' => some 2
  | 'u' => some 4
  | 'U' => some 8
  | _ => none

/-- The character with the given code. -/
def ofCode? (n : Nat) : Option Char :=
  if n.isValidChar then some (Char.ofNat n) else none

/-- Reads a scalar between single quotes after the first of them. -/
def singleQuoted (gap : Gap) : List Spot → Option (List Char × List Spot)
  | [] => none
  | s :: rest =>
    if isDocumentMark (s :: rest) then none
    else if isBlank s.char then singleQuoted (gap.addBlank s.char) rest
    else if isBreak s.char then singleQuoted (gap.addBreak s.char) rest
    else if s.char == '\'' then
      match rest with
      | t :: more =>
        if t.char == '\'' then
          (singleQuoted {} more).map fun (cs, rest) => (gap.text ++ '\'' :: cs, rest)
        else some (gap.text, t :: more)
      | [] => some (gap.text, [])
    else (singleQuoted {} rest).map fun (cs, rest) => (gap.text ++ s.char :: cs, rest)

/-- Where the reading of a scalar between double quotes stands. -/
inductive QuoteState where
  /-- After a character or a gap. -/
  | text (gap : Gap)
  /-- After a backslash. -/
  | escape
  /-- Inside the digits of an escape: how many are to come, and the value of those before. -/
  | code (left value : Nat)

/-- Reads a scalar between double quotes after the first of them. -/
def doubleQuoted : QuoteState → List Spot → Option (List Char × List Spot)
  | _, [] => none
  | .text gap, s :: rest =>
    if isDocumentMark (s :: rest) then none
    else if isBlank s.char then doubleQuoted (.text (gap.addBlank s.char)) rest
    else if isBreak s.char then doubleQuoted (.text (gap.addBreak s.char)) rest
    else if s.char == '"' then some (gap.text, rest)
    else if s.char == '\\' then
      (doubleQuoted .escape rest).map fun (cs, rest) => (gap.text ++ cs, rest)
    else (doubleQuoted (.text {}) rest).map fun (cs, rest) => (gap.text ++ s.char :: cs, rest)
  | .escape, s :: rest =>
    if isBreak s.char then doubleQuoted (.text { isBroken := true }) rest
    else
      match codeLength? s.char with
      | some left => doubleQuoted (.code left 0) rest
      | none =>
        match escape? s.char with
        | some c => (doubleQuoted (.text {}) rest).map fun (cs, rest) => (c :: cs, rest)
        | none => none
  | .code left value, s :: rest =>
    match Chars.digit? 16 s.char with
    | none => none
    | some digit =>
      let value := value * 16 + digit
      if left ≤ 1 then
        match ofCode? value with
        | some c => (doubleQuoted (.text {}) rest).map fun (cs, rest) => (c :: cs, rest)
        | none => none
      else doubleQuoted (.code (left - 1) value) rest

/-! ## Blocks of lines -/

/-- What becomes of the ends of lines at the end of a block. -/
inductive Chomping where
  /-- All are dropped. -/
  | strip
  /-- The first is kept. -/
  | clip
  /-- All are kept. -/
  | keep
  deriving DecidableEq, Repr

/-- The first line of a block: how it ends, and the indentation if it is given. -/
structure BlockHeader where
  /-- What becomes of the ends of lines at the end. -/
  chomping : Chomping := .clip
  /-- The indentation of the lines beyond that of what holds the block. -/
  indentation? : Option Nat := none

namespace BlockHeader

/-- Reads what stands directly after the mark of a block, at most one of each. -/
def read (cs : List Spot) : Option (BlockHeader × List Spot) :=
  let chomping? (c : Char) : Option Chomping :=
    if c == '+' then some .keep else if c == '-' then some .strip else none
  match cs with
  | [] => some ({}, [])
  | s :: rest =>
    match chomping? s.char with
    | some chomping =>
      match rest with
      | t :: more =>
        if t.char.isDigit then
          if t.char == '0' then none
          else some (⟨chomping, Chars.digit? 10 t.char⟩, more)
        else some ({ chomping }, t :: more)
      | [] => some ({ chomping }, [])
    | none =>
      if s.char.isDigit then
        if s.char == '0' then none
        else
          match rest with
          | t :: more =>
            match chomping? t.char with
            | some chomping => some (⟨chomping, Chars.digit? 10 s.char⟩, more)
            | none => some ({ indentation? := Chars.digit? 10 s.char }, t :: more)
          | [] => some ({ indentation? := Chars.digit? 10 s.char }, [])
      else some ({}, s :: rest)

end BlockHeader

/-- Empty lines of a block: the ends of the lines, the greatest column at which one of them or the
line after them begins, and the rest. With no indentation yet, all spaces count as indentation. -/
def emptyLines (indentation? : Option Nat) (greatest : Nat) :
    List Spot → Option (List Char × Nat × List Spot)
  | [] => some ([], greatest, [])
  | s :: rest =>
    let isBefore := indentation?.all (s.column < ·)
    if isBefore && s.char == ' ' then emptyLines indentation? greatest rest
    else
      let greatest := max greatest s.column
      if isBefore && s.char == '\t' then none
      else if isBreak s.char then
        (emptyLines indentation? greatest rest).map fun (breaks, greatest, rest) =>
          (s.char :: breaks, greatest, rest)
      else some ([], greatest, s :: rest)

/-- How a line of a block is joined to the one before. -/
structure BlockJoint where
  /-- The end of the line before. -/
  lead : List Char := []
  /-- Whether the line before started with a blank. -/
  afterBlank : Bool := false
  /-- The ends of the empty lines in between. -/
  empty : List Char := []

/-- Reads the lines of a block, at most `fuel` of them. -/
def blockLines (isLiteral : Bool) (chomping : Chomping) (indentation : Nat) :
    Nat → BlockJoint → List Spot → Option (List Char × List Spot)
  | 0, _, _ => none
  | fuel + 1, joint, cs =>
    let atEnd : List Char :=
      match chomping with
      | .strip => []
      | .clip => joint.lead
      | .keep => joint.lead ++ joint.empty
    match cs with
    | [] => some (atEnd, [])
    | s :: _ =>
      if s.column ≠ indentation then some (atEnd, cs)
      else
        let isFolded := !isLiteral && joint.lead == ['\n'] && !joint.afterBlank && !isBlank s.char
        let lead := if isFolded then (if joint.empty.isEmpty then [' '] else []) else joint.lead
        let line := cs.takeWhile (!isBreak ·.char)
        let after := cs.dropWhile (!isBreak ·.char)
        match emptyLines (some indentation) 0 (after.drop 1) with
        | none => none
        | some (empty, _, rest) =>
          let joint' : BlockJoint := ⟨chars (after.take 1), isBlank s.char, empty⟩
          (blockLines isLiteral chomping indentation fuel joint' rest).map fun (text, rest) =>
            (lead ++ joint.empty ++ chars line ++ text, rest)

/-- Reads a block of lines after its mark. Its lines are indented deeper than `outer`, if anything
around it is. -/
def block (isLiteral : Bool) (outer : Option Nat) (cs : List Spot) :
    Option (List Char × List Spot) :=
  match BlockHeader.read cs with
  | none => none
  | some (header, cs) =>
    let cs := cs.dropWhile (isBlank ·.char)
    let cs := if cs.head?.any (·.char == '#') then cs.dropWhile (!isBreak ·.char) else cs
    if cs.head?.any (!isBreak ·.char) then none
    else
      let given? := header.indentation?.map ((outer.getD 0) + ·)
      match emptyLines given? 0 (cs.drop 1) with
      | none => none
      | some (empty, greatest, rest) =>
        let least := (outer.map (· + 1)).getD 0
        let indentation := given?.getD (max (max greatest least) 1)
        blockLines isLiteral header.chomping indentation (cs.length + 1) { empty } rest

/-! ## What a scalar may be taken for -/

/-- How a scalar is written. -/
inductive Style where
  /-- Without any marks. -/
  | plain
  /-- Between quotes. -/
  | quoted
  /-- As a block whose lines stay as they are. -/
  | literal
  /-- As a block whose lines are joined. -/
  | folded
  deriving DecidableEq, Repr

/-- The name of a tag. Parts of it may be written as the numbers of bytes, so it is no text. -/
abbrev TagName := List UInt8

/-- The full name of a tag of the core schema. -/
def coreTag (name : String) : TagName :=
  Chars.bytes ("tag:yaml.org,2002:" ++ name).toList

/-- Whether a text is one of the words for null. -/
def isNullWord (s : String) : Bool :=
  ["null", "Null", "NULL", "~"].contains s

/-- The truth value that a word stands for. -/
def boolWord? (s : String) : Option Bool :=
  if ["true", "True", "TRUE"].contains s then some true
  else if ["false", "False", "FALSE"].contains s then some false
  else none

/-- The natural number that a text stands for: in decimal without useless zeros, or after `0x`, `0o`
or `0b` in the radix that they name. One plus sign may come first. -/
def natWord? (cs : List Char) : Option Nat :=
  let unsigned :=
    match cs with
    | '+' :: rest => rest
    | cs => cs
  let read (radix : Nat) (digits : List Char) : Option Nat :=
    (Chars.numeral radix Chars.greatestWord digits).toOption
  match unsigned with
  | '0' :: 'x' :: digits => read 16 digits
  | '0' :: 'o' :: digits => read 8 digits
  | '0' :: 'b' :: digits => read 2 digits
  | '0' :: _ :: _ => none
  | digits => read 10 digits

/-- The value of a scalar. -/
def scalarValue (style : Style) (tag : Option TagName) (text : List Char) : Value :=
  let s := String.ofList text
  let isPlain := style == .plain
  let isTaggedNull := isPlain && tag == some (coreTag "null")
  let mayBe (name : String) : Bool :=
    isPlain || (style == .literal && tag == some (coreTag name))
  .scalar
    { isAbsent := isPlain && text.isEmpty
      isNull := (isTaggedNull && isNullWord s) ||
        (isPlain && tag.isNone && (text.isEmpty || isNullWord s))
      isFalseNull := isTaggedNull && !isNullWord s
      bool? := if mayBe "bool" then boolWord? s else none
      nat? := if mayBe "int" then natWord? text else none
      text? := some s }

/-- The value where nothing is written. -/
def absent : Value :=
  scalarValue .plain none []

end XsdTypes.Config.Yaml
