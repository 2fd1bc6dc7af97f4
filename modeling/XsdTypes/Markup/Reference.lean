import XsdTypes.Chars.Utf8
import XsdTypes.Markup.Fault

/-!
# References in texts

A text or an attribute value may hold references: an ampersand, a name or a character number, and a
semicolon. Five names are known. A semicolon without an ampersand before it is an ordinary
character, and an ampersand always starts a reference.
-/

namespace XsdTypes.Markup

/-- The character that a known name stands for. -/
def namedCharacter? : List Char → Option Char
  | ['l', 't'] => some '<'
  | ['g', 't'] => some '>'
  | ['a', 'm', 'p'] => some '&'
  | ['a', 'p', 'o', 's'] => some '\''
  | ['q', 'u', 'o', 't'] => some '"'
  | _ => none

/-- The value of the numeral of a character number, which has no sign. -/
def characterCode (radix : Nat) (digits : List Char) : Except ReferenceFault Nat :=
  match digits with
  | '+' :: _ | '-' :: _ => .error .signed
  | digits => (Chars.numeral radix 4294967295 digits).mapError .numeral

/-- The character with a given number, written after `#`: hexadecimal after `x`, else decimal. -/
def numberedCharacter (digits : List Char) : Except ReferenceFault Char := do
  let code ←
    match digits with
    | 'x' :: digits => characterCode 16 digits
    | digits => characterCode 10 digits
  if code = 0 then throw .zero
  if 0x10FFFF < code ∨ (0xD800 ≤ code ∧ code ≤ 0xDFFF) then throw (.noCharacter code)
  return Char.ofNat code

/-- The character that the reference between `start` and `stop` stands for. -/
def referredCharacter (start stop : Nat) (content : List Char) : Except ReferenceFault Char :=
  match content with
  | '#' :: digits => numberedCharacter digits
  | name =>
    match namedCharacter? name with
    | some c => .ok c
    | none => .error (.unknownName start stop (String.ofList name))

/-- Reads a text of `length` bytes on from byte `reached`. `done` holds the characters before it,
latest first, and `pending` the reference being read, if there is one: where its ampersand stands
and its characters so far, latest first. -/
def unescapeFrom (length reached : Nat) (done : List Char) (pending : Option (Nat × List Char)) :
    List Char → Except ReferenceFault (List Char)
  | [] =>
    match pending with
    | none => .ok done.reverse
    | some (start, _) => .error (.unterminated start length)
  | c :: cs =>
    match pending with
    | none =>
      if c = '&' then unescapeFrom length (reached + 1) done (some (reached, [])) cs
      else unescapeFrom length (reached + c.utf8Size) (c :: done) none cs
    | some (start, content) =>
      if c = '&' then .error (.unterminated start length)
      else if c = ';' then
        match referredCharacter (start + 1) reached content.reverse with
        | .error fault => .error fault
        | .ok d => unescapeFrom length (reached + 1) (d :: done) none cs
      else unescapeFrom length (reached + c.utf8Size) done (some (start, c :: content)) cs

/-- The text with every reference replaced by its character. -/
def unescape (cs : List Char) : Except ReferenceFault (List Char) :=
  unescapeFrom (Chars.byteLength cs) 0 [] none cs

end XsdTypes.Markup
