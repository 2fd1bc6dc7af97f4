import XsdTypes.Chars.Numeral

/-!
# What is wrong with a markup text

The causes for which a markup text is refused, and what the report of each says. Numbers in a cause
count bytes: from the start of a tag's content for attributes, from the start of the text or value
for references.
-/

namespace XsdTypes.Markup

/-- Why a reference such as `&lt;` or `&#65;` is refused. -/
inductive ReferenceFault where
  /-- No semicolon follows the ampersand at `start` in a text of `length` bytes. -/
  | unterminated (start length : Nat)
  /-- The name between `start` and `stop` is not one of the five that are known. -/
  | unknownName (start stop : Nat) (name : String)
  /-- A character number has a sign. -/
  | signed
  /-- A character number is no numeral. -/
  | numeral (fault : Chars.NumeralFault)
  /-- The character number is zero. -/
  | zero
  /-- No character has the number. -/
  | noCharacter (code : Nat)
  deriving DecidableEq, Repr

/-- What the report of a refused reference says. -/
def ReferenceFault.message : ReferenceFault → String
  | .unterminated start length =>
    s!"Error while escaping character at range {start}..{length}: Cannot find ';' after '&'"
  | .unknownName start stop name => s!"at {start}..{stop}: unrecognized entity `{name}`"
  | .signed => "invalid character reference: unexpected number sign"
  | .numeral .empty => "invalid character reference: cannot parse integer from empty string"
  | .numeral .badDigit => "invalid character reference: invalid digit found in string"
  | .numeral .tooLarge =>
    "invalid character reference: number too large to fit in target type"
  | .zero => "invalid character reference: 0x0 character is not permitted in XML"
  | .noCharacter code => s!"invalid character reference: `{code}` is not a valid codepoint"

/-- Why the attributes of a tag are refused. -/
inductive AttributeFault where
  /-- There is no equals sign after the key. -/
  | noEquals (position : Nat)
  /-- There is nothing after the equals sign. -/
  | noValue (position : Nat)
  /-- The value does not start with a quote. -/
  | unquoted (position : Nat)
  /-- The value does not end with its quote. -/
  | unclosed (position : Nat) (quote : Char)
  /-- The key at `position` also stands at `earlier`. -/
  | repeated (position earlier : Nat)
  deriving DecidableEq, Repr

/-- What the report of refused attributes says. -/
def AttributeFault.message : AttributeFault → String
  | .noEquals position =>
    s!"position {position}: attribute key must be directly followed by `=` or space"
  | .noValue position => s!"position {position}: `=` must be followed by an attribute value"
  | .unquoted position =>
    s!"position {position}: attribute value must be enclosed in `\"` or `'`"
  | .unclosed position quote =>
    s!"position {position}: missing closing quote `{quote}` in attribute value"
  | .repeated position earlier =>
    s!"position {position}: duplicated attribute, previous declaration at position {earlier}"

/-- The constructs that have an end mark. -/
inductive Construct where
  | instruction
  | comment
  | doctype
  | cdata
  | tag
  deriving DecidableEq, Repr

/-- The name of a construct in messages. -/
def Construct.text : Construct → String
  | .instruction => "processing instruction or xml declaration"
  | .comment => "comment"
  | .doctype => "DOCTYPE"
  | .cdata => "CDATA"
  | .tag => "tag"

/-- The mark that ends a construct. -/
def Construct.endMark : Construct → String
  | .instruction => "?>"
  | .comment => "-->"
  | .doctype => ">"
  | .cdata => "]]>"
  | .tag => ">"

/-- Why a markup text is refused. -/
inductive Fault where
  /-- No construct starts like this. -/
  | unknownConstruct
  /-- A construct does not start or end as it should. -/
  | unclosed (construct : Construct)
  /-- An end tag closes nothing. -/
  | strayEnd (name : String)
  /-- An end tag closes another tag than the innermost open one. -/
  | mismatchedEnd (expected found : String)
  /-- A document type declaration has no name. -/
  | namelessDoctype
  /-- The attributes of a tag are refused. -/
  | attributes (fault : AttributeFault)
  /-- A reference in a text or a value is refused. -/
  | reference (fault : ReferenceFault)
  deriving DecidableEq, Repr

/-- What the report of a refused text says. -/
def Fault.message : Fault → String
  | .unknownConstruct => "syntax error: unknown or missed symbol in markup"
  | .unclosed construct =>
    "syntax error: " ++ construct.text ++ " not closed: `" ++ construct.endMark ++
      "` not found before end of input"
  | .strayEnd name =>
    s!"ill-formed document: close tag `</{name}>` does not match any open tag"
  | .mismatchedEnd expected found =>
    s!"ill-formed document: expected `</{expected}>`, but `</{found}>` was found"
  | .namelessDoctype =>
    "ill-formed document: `<!DOCTYPE>` declaration does not contain a name of a document type"
  | .attributes fault => fault.message
  | .reference fault => fault.message

end XsdTypes.Markup
