import XsdTypes.Config.Yaml.Scalar

/-!
# Tokens

Turns characters into tokens. Besides what is written there are tokens for what indentation means:
the start of a block list or record, and the end of one. Whether a scalar is the key of a record is
seen only at the colon after it, so the place where a key could start is kept until then, and the
tokens that announce the key are put in before it.
-/

namespace XsdTypes.Config.Yaml

/-- The parts of which a document is made. -/
inductive Token where
  /-- The version of the format. -/
  | version (major minor : Nat)
  /-- What a handle of tags stands for. -/
  | handle (name : String) (expansion : TagName)
  /-- The mark that begins a document. -/
  | documentStart
  /-- The mark that ends a document. -/
  | documentEnd
  /-- Indentation begins a list. -/
  | blockListStart
  /-- Indentation begins a record. -/
  | blockRecordStart
  /-- Indentation ends a list or a record. -/
  | blockEnd
  /-- An opening bracket. -/
  | flowListStart
  /-- A closing bracket. -/
  | flowListEnd
  /-- An opening brace. -/
  | flowRecordStart
  /-- A closing brace. -/
  | flowRecordEnd
  /-- The dash before an item. -/
  | blockEntry
  /-- The comma between items. -/
  | flowEntry
  /-- A key follows. -/
  | key
  /-- The value of a key follows. -/
  | value
  /-- The name of a node that was written before. -/
  | reference (name : String)
  /-- The name of the node that follows. -/
  | anchor (name : String)
  /-- The tag of the node that follows, as a handle and what follows it. -/
  | tag (handle : String) (suffix : TagName)
  /-- A scalar. -/
  | scalar (style : Style) (text : List Char)
  deriving DecidableEq, Repr

/-- A place at which the key of a record may have started. -/
structure KeyPlace where
  /-- The number of tokens before it. -/
  position : Nat
  /-- The character at which it starts. -/
  spot : Spot
  /-- Whether there must be a key, as the line starts where the keys of a record do. -/
  isRequired : Bool

/-- Where the reading of tokens stands. -/
structure Scan where
  /-- The characters that are left. -/
  rest : List Spot
  /-- The tokens so far. -/
  tokens : Array Token := #[]
  /-- Whether a key may start here. -/
  mayStartKey : Bool := true
  /-- Where the key may have started to which a colon here would belong. -/
  keyPlace : Option KeyPlace := none
  /-- The same for the flow collections around, innermost first. -/
  outerKeys : List (Option KeyPlace) := []
  /-- The columns of the block collections around, innermost first. -/
  columns : List Nat := []

namespace Scan

/-- Whether the reading is inside a flow collection. -/
def inFlow (s : Scan) : Bool :=
  !s.outerKeys.isEmpty

/-- The state with a token more. -/
def emit (s : Scan) (t : Token) : Scan :=
  { s with tokens := s.tokens.push t }

/-- The state with a token put in at a position. -/
def emitAt (s : Scan) (position : Nat) (t : Token) : Scan :=
  let before := s.tokens.extract 0 position
  let after := s.tokens.extract position s.tokens.size
  { s with tokens := before.push t ++ after }

/-- The state without the first `n` characters. -/
def skip (s : Scan) (n : Nat) : Scan :=
  { s with rest := s.rest.drop n }

/-! ## Places of keys -/

/-- Gives up a place of a key, unless there must be one. -/
def giveUp : Option KeyPlace → Option (Option KeyPlace)
  | some k => if k.isRequired then none else some none
  | none => some none

/-- Gives up the place of a key at the present level. -/
def dropKey (s : Scan) : Option Scan :=
  (giveUp s.keyPlace).map fun keyPlace => { s with keyPlace }

/-- A key and its colon stand on one line, and within this many bytes. -/
def keySpan : Nat := 1024

/-- Gives up the places of keys from which `here` is too far. -/
def dropStaleKeys (s : Scan) (here : Spot) : Option Scan :=
  let check (k? : Option KeyPlace) : Option (Option KeyPlace) :=
    match k? with
    | some k =>
      if k.spot.line < here.line || k.spot.index + keySpan < here.index then giveUp k? else some k?
    | none => some none
  match check s.keyPlace, s.outerKeys.mapM check with
  | some keyPlace, some outerKeys => some { s with keyPlace, outerKeys }
  | _, _ => none

/-- Notes that a key may start here. -/
def saveKey (s : Scan) (here : Spot) : Option Scan :=
  if s.mayStartKey then
    s.dropKey.map fun s =>
      let isRequired := !s.inFlow && s.columns.head? == some here.column
      { s with keyPlace := some ⟨s.tokens.size, here, isRequired⟩ }
  else some s

/-! ## Indentation -/

/-- Begins a block collection at a column, if it is deeper than those around. -/
def indent (s : Scan) (column : Nat) (position : Nat) (start : Token) : Scan :=
  if !s.inFlow && s.columns.head?.all (· < column) then
    { s.emitAt position start with columns := column :: s.columns }
  else s

/-- Ends all block collections that are deeper than the column; all of them without a column. -/
def unindent (s : Scan) (column? : Option Nat) : Scan :=
  if s.inFlow then s
  else
    let isDeeper (c : Nat) : Bool := column?.all (· < c)
    let ended := s.columns.takeWhile isDeeper
    { s with
      columns := s.columns.dropWhile isDeeper
      tokens := s.tokens ++ (ended.map fun _ => Token.blockEnd).toArray }

/-! ## Blanks and comments -/

/-- The characters from the next token on, and whether a key may start there. A tab is a blank only
where no key may start, and a byte order mark only where a line starts. -/
def toToken (inFlow : Bool) : (mayStartKey inComment : Bool) → List Spot → Bool × List Spot
  | mayStartKey, _, [] => (mayStartKey, [])
  | mayStartKey, inComment, s :: rest =>
    if isBreak s.char then toToken inFlow (mayStartKey || !inFlow) false rest
    else if inComment then toToken inFlow mayStartKey true rest
    else if s.char == ' ' || (s.char == '\t' && (inFlow || !mayStartKey)) then
      toToken inFlow mayStartKey false rest
    else if s.char == byteOrderMark && s.column == 0 then toToken inFlow mayStartKey false rest
    else if s.char == '#' then toToken inFlow mayStartKey true rest
    else (mayStartKey, s :: rest)

/-! ## Tags, anchors and directives -/

/-- Whether a character may be part of a tag as it is. -/
def isTagChar (isVerbatim : Bool) (c : Char) : Bool :=
  isWord c || ";/?:@&=+$.!~*'()".toList.contains c || (isVerbatim && ",[]".toList.contains c)

/-- How many bytes follow a byte in a character of which it is the first. -/
def followers? (b : Nat) : Option Nat :=
  if b < 0x80 then some 0
  else if 0xC0 ≤ b && b < 0xE0 then some 1
  else if 0xE0 ≤ b && b < 0xF0 then some 2
  else if 0xF0 ≤ b && b < 0xF8 then some 3
  else none

/-- Reads the name of a tag. A percent sign stands before the two digits of a byte. The bytes of one
character stand one after the other, of which `owed` are to come. -/
def tagName (isVerbatim : Bool) : (owed : Nat) → List Spot → Option (TagName × List Spot)
  | owed, [] => if owed = 0 then some ([], []) else none
  | owed, s :: rest =>
    if s.char == '%' then
      match rest with
      | a :: b :: rest =>
        match Chars.digit? 16 a.char, Chars.digit? 16 b.char with
        | some high, some low =>
          let byte := high * 16 + low
          let owed? :=
            if owed = 0 then followers? byte
            else if 0x80 ≤ byte && byte < 0xC0 then some (owed - 1)
            else none
          match owed? with
          | some owed =>
            (tagName isVerbatim owed rest).map fun (bs, rest) => (UInt8.ofNat byte :: bs, rest)
          | none => none
        | _, _ => none
      | _ => none
    else if owed ≠ 0 then none
    else if isTagChar isVerbatim s.char then
      (tagName isVerbatim 0 rest).map fun (bs, rest) => (Chars.bytes [s.char] ++ bs, rest)
    else some ([], s :: rest)

/-- Reads a tag after its exclamation mark: between angle brackets, after a named handle, or alone.
Without any name of its own, or with one that starts with a zero byte, the mark alone is the tag. -/
def tag (cs : List Spot) : Option (Token × List Spot) :=
  let isMark (c : Char) (cs : List Spot) : Bool := cs.head?.any (·.char == c)
  if isMark '<' cs then
    match tagName true 0 (cs.drop 1) with
    | some (uri, rest) =>
      if !uri.isEmpty && isMark '>' rest then some (.tag "" uri, rest.drop 1) else none
    | none => none
  else
    let word := cs.takeWhile (isWord ·.char)
    let after := cs.dropWhile (isWord ·.char)
    if isMark '!' after then
      match tagName false 0 (after.drop 1) with
      | some (suffix, rest) =>
        if suffix.isEmpty then none
        else some (.tag (String.ofList ('!' :: chars word ++ ['!'])) suffix, rest)
      | none => none
    else
      match tagName false 0 cs with
      | some (suffix, rest) =>
        if suffix.head?.all (· == 0) then some (.tag "" (Chars.bytes ['!']), rest)
        else some (.tag "!" suffix, rest)
      | none => none

/-- Reads the name of an anchor or an alias. -/
def name (cs : List Spot) : Option (String × List Spot) :=
  let word := cs.takeWhile (isWord ·.char)
  let rest := cs.dropWhile (isWord ·.char)
  if !word.isEmpty && (endsWord rest ||
      rest.head?.any fun s => "?:,]\x7d%@\x60".toList.contains s.char) then
    some (String.ofList (chars word), rest)
  else none

/-- Reads a number of at most nine digits. -/
def shortNumber (cs : List Spot) : Option (Nat × List Spot) :=
  let digits := chars (cs.takeWhile (·.char.isDigit))
  if digits.length ≤ 9 then
    (Chars.numeral 10 999999999 digits).toOption.map fun n => (n, cs.dropWhile (·.char.isDigit))
  else none

/-- Reads a directive after its percent sign, up to the end of its line. -/
def directive (cs : List Spot) : Option (Token × List Spot) :=
  let skipBlanks (cs : List Spot) : List Spot := cs.dropWhile (isBlank ·.char)
  let word := chars (cs.takeWhile (isWord ·.char))
  let cs := cs.dropWhile (isWord ·.char)
  let read : Option (Token × List Spot) :=
    if !endsWord cs then none
    else if word = "YAML".toList then
      match shortNumber (skipBlanks cs) with
      | some (major, dot :: rest) =>
        if dot.char == '.' then
          (shortNumber rest).map fun (minor, rest) => (.version major minor, rest)
        else none
      | _ => none
    else if word = "TAG".toList then
      match skipBlanks cs with
      | mark :: rest =>
        let inner := rest.takeWhile (isWord ·.char)
        let after := rest.dropWhile (isWord ·.char)
        let isNamed := after.head?.any (·.char == '!')
        let handle := '!' :: chars inner ++ if isNamed then ['!'] else []
        let after := if isNamed then after.drop 1 else after
        if mark.char == '!' && (isNamed || inner.isEmpty) &&
            after.head?.any (isBlank ·.char) then
          match tagName true 0 (skipBlanks after) with
          | some (uri, rest) =>
            if !uri.isEmpty && endsWord rest then some (.handle (String.ofList handle) uri, rest)
            else none
          | none => none
        else none
      | [] => none
    else none
  match read with
  | none => none
  | some (t, rest) =>
    let rest := skipBlanks rest
    let rest := if rest.head?.any (·.char == '#') then rest.dropWhile (!isBreak ·.char) else rest
    if rest.head?.any (!isBreak ·.char) then none else some (t, rest.drop 1)

/-! ## Reading tokens -/

/-- A token that ends all block collections and stands on a line of its own. -/
def atMargin (s : Scan) (read : Scan → Option Scan) : Option Scan :=
  (s.unindent none).dropKey.bind fun s => read { s with mayStartKey := false }

/-- A node that may be a key, after which no key may start. -/
def node (s : Scan) (here : Spot) (read : List Spot → Option (Token × List Spot)) : Option Scan :=
  (s.saveKey here).bind fun s =>
    (read s.rest).map fun (t, rest) => { s.emit t with rest, mayStartKey := false }

/-- Opens a flow collection. -/
def openFlow (s : Scan) (here : Spot) (t : Token) : Option Scan :=
  (s.saveKey here).map fun s =>
    { (s.emit t).skip 1 with
      outerKeys := s.keyPlace :: s.outerKeys, keyPlace := none, mayStartKey := true }

/-- Closes a flow collection. -/
def closeFlow (s : Scan) (t : Token) : Option Scan :=
  s.dropKey.map fun s =>
    let s := { (s.emit t).skip 1 with mayStartKey := false }
    match s.outerKeys with
    | keyPlace :: outerKeys => { s with keyPlace, outerKeys }
    | [] => s

/-- The dash before an item. -/
def blockEntry (s : Scan) (here : Spot) : Option Scan :=
  if !s.inFlow && !s.mayStartKey then none
  else
    (s.indent here.column s.tokens.size .blockListStart).dropKey.map fun s =>
      { (s.emit .blockEntry).skip 1 with mayStartKey := true }

/-- The question mark before a key. -/
def explicitKey (s : Scan) (here : Spot) : Option Scan :=
  if !s.inFlow && !s.mayStartKey then none
  else
    (s.indent here.column s.tokens.size .blockRecordStart).dropKey.map fun s =>
      { (s.emit .key).skip 1 with mayStartKey := !s.inFlow }

/-- The colon before a value: what may have been a key now is one. -/
def valueMark (s : Scan) (here : Spot) : Option Scan :=
  match s.keyPlace with
  | some k =>
    let s := (s.emitAt k.position .key).indent k.spot.column k.position .blockRecordStart
    some { (s.emit .value).skip 1 with keyPlace := none, mayStartKey := false }
  | none =>
    if !s.inFlow && !s.mayStartKey then none
    else
      let s := s.indent here.column s.tokens.size .blockRecordStart
      some { (s.emit .value).skip 1 with mayStartKey := !s.inFlow }

/-- A block of lines. -/
def blockScalar (s : Scan) (isLiteral : Bool) : Option Scan :=
  s.dropKey.bind fun s =>
    (block isLiteral s.columns.head? (s.rest.drop 1)).map fun (text, rest) =>
      { s.emit (.scalar (if isLiteral then .literal else .folded) text) with
        rest, mayStartKey := true }

/-- A plain scalar. -/
def plainScalar (s : Scan) (here : Spot) : Option Scan :=
  (s.saveKey here).bind fun s =>
    (plain s.inFlow ((s.columns.head?.map (· + 1)).getD 0) {} s.rest).map fun p =>
      { s.emit (.scalar .plain p.text) with rest := p.rest, mayStartKey := p.brokeLine }

/-- Whether a plain scalar may start with the character, given what follows it. -/
def startsPlain (inFlow : Bool) (c : Char) (rest : List Spot) : Bool :=
  if c == '-' then !rest.head?.any (isBlank ·.char)
  else if c == '?' || c == ':' then !inFlow && !endsWord rest
  else !",[]\x7b\x7d#&*!|>'\"%@\x60".toList.contains c && !isBlank c

/-- Reads the token that starts at `here`. -/
def token (s : Scan) (here : Spot) (rest : List Spot) : Option Scan :=
  let c := here.char
  let quoted (r : Option (List Char × List Spot)) : Option (Token × List Spot) :=
    r.map fun (text, rest) => (.scalar .quoted text, rest)
  if here.column == 0 && c == '%' then
    s.atMargin fun s => (directive rest).map fun (t, rest) => { s.emit t with rest }
  else if here.column == 0 && isTriple '-' s.rest then
    s.atMargin fun s => some ((s.emit .documentStart).skip 3)
  else if here.column == 0 && isTriple '.' s.rest then
    s.atMargin fun s => some ((s.emit .documentEnd).skip 3)
  else if c == '[' then s.openFlow here .flowListStart
  else if c == '\x7b' then s.openFlow here .flowRecordStart
  else if c == ']' then s.closeFlow .flowListEnd
  else if c == '\x7d' then s.closeFlow .flowRecordEnd
  else if c == ',' then
    s.dropKey.map fun s => { (s.emit .flowEntry).skip 1 with mayStartKey := true }
  else if c == '-' && endsWord rest then s.blockEntry here
  else if c == '?' && (s.inFlow || endsWord rest) then s.explicitKey here
  else if c == ':' && (s.inFlow || endsWord rest) then s.valueMark here
  else if c == '*' then s.node here fun _ => (name rest).map fun (n, rest) => (.reference n, rest)
  else if c == '&' then s.node here fun _ => (name rest).map fun (n, rest) => (.anchor n, rest)
  else if c == '!' then
    s.node here fun _ =>
      match tag rest with
      | some (t, rest) =>
        if endsWord rest || (s.inFlow && rest.head?.any (·.char == ',')) then some (t, rest)
        else none
      | none => none
  else if c == '|' && !s.inFlow then s.blockScalar true
  else if c == '>' && !s.inFlow then s.blockScalar false
  else if c == '\'' then s.node here fun _ => quoted (singleQuoted {} rest)
  else if c == '"' then s.node here fun _ => quoted (doubleQuoted (.text {}) rest)
  else if startsPlain s.inFlow c rest then s.plainScalar here
  else none

/-- Reads all tokens, at most `fuel` of them. -/
def run : Nat → Scan → Option (List Token)
  | 0, _ => none
  | fuel + 1, s =>
    let (mayStartKey, rest) := toToken s.inFlow s.mayStartKey false s.rest
    let s := { s with mayStartKey, rest }
    match rest with
    | [] => (s.unindent none).dropKey.map fun s => s.tokens.toList
    | here :: more =>
      match s.dropStaleKeys here with
      | none => none
      | some s =>
        match (s.unindent (some here.column)).token here more with
        | none => none
        | some s => run fuel s

end Scan

/-- The tokens of a text. -/
def tokens? (text : String) : Option (List Token) :=
  let cs := text.toList
  if cs.all isAllowed then Scan.run (cs.length + 1) { rest := spots cs } else none

end XsdTypes.Config.Yaml
