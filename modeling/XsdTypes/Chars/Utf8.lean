/-!
# UTF-8

Offsets into a document count bytes, and files hold bytes. This module gives the number of bytes
of a text, the bytes themselves, and the reading of bytes as text: strictly, or with every
ill-formed piece replaced by U+FFFD.
-/

namespace XsdTypes.Chars

/-- The number of bytes of the text in UTF-8. -/
def byteLength : List Char → Nat
  | [] => 0
  | c :: cs => c.utf8Size + byteLength cs

/-- The bytes of the text in UTF-8. -/
def bytes (cs : List Char) : List UInt8 :=
  cs.flatMap String.utf8EncodeChar

/-- Whether the byte continues a character of several bytes. -/
def isContinuation (b : UInt8) : Bool :=
  0x80 ≤ b && b ≤ 0xBF

/-- Whether `b` may follow the leading byte `lead`: the second byte also rules out overlong forms,
surrogates and values above the last code point. -/
def maySecond (lead b : UInt8) : Bool :=
  if lead == 0xE0 then 0xA0 ≤ b && b ≤ 0xBF
  else if lead == 0xED then 0x80 ≤ b && b ≤ 0x9F
  else if lead == 0xF0 then 0x90 ≤ b && b ≤ 0xBF
  else if lead == 0xF4 then 0x80 ≤ b && b ≤ 0x8F
  else isContinuation b

/-- The number of bytes of a character that starts with `lead`, zero if none does. -/
def spanOfLead (lead : UInt8) : Nat :=
  if lead ≤ 0x7F then 1
  else if 0xC2 ≤ lead && lead ≤ 0xDF then 2
  else if 0xE0 ≤ lead && lead ≤ 0xEF then 3
  else if 0xF0 ≤ lead && lead ≤ 0xF4 then 4
  else 0

/-- The character at the front of the bytes, or `none` for the longest piece that starts no
character, with the bytes after it. -/
def decodeFront (lead : UInt8) (rest : List UInt8) : Option Char × List UInt8 :=
  let low (b : UInt8) : Nat := b.toNat % 64
  match spanOfLead lead, rest with
  | 1, rest => (some (Char.ofNat lead.toNat), rest)
  | 2, b :: rest =>
    if isContinuation b then (some (Char.ofNat (lead.toNat % 32 * 64 + low b)), rest)
    else (none, b :: rest)
  | 3, b :: rest =>
    if maySecond lead b then
      match rest with
      | c :: rest =>
        if isContinuation c then
          (some (Char.ofNat ((lead.toNat % 16 * 64 + low b) * 64 + low c)), rest)
        else (none, c :: rest)
      | [] => (none, [])
    else (none, b :: rest)
  | 4, b :: rest =>
    if maySecond lead b then
      match rest with
      | c :: rest =>
        if isContinuation c then
          match rest with
          | d :: rest =>
            if isContinuation d then
              (some (Char.ofNat (((lead.toNat % 8 * 64 + low b) * 64 + low c) * 64 + low d)), rest)
            else (none, d :: rest)
          | [] => (none, [])
        else (none, c :: rest)
      | [] => (none, [])
    else (none, b :: rest)
  | _, rest => (none, rest)

/-- Decodes at most `fuel` pieces. -/
def decodeUpTo : Nat → List UInt8 → List (Option Char)
  | 0, _ => []
  | _, [] => []
  | fuel + 1, lead :: rest =>
    let (front, rest) := decodeFront lead rest
    front :: decodeUpTo fuel rest

/-- The pieces of the bytes: characters, and `none` for each ill-formed piece. -/
def decode (bs : List UInt8) : List (Option Char) :=
  decodeUpTo bs.length bs

/-- The text that the bytes are, if they are well formed. -/
def decode? (bs : List UInt8) : Option (List Char) :=
  (decode bs).mapM id

/-- The text that the bytes are, with U+FFFD for each ill-formed piece. -/
def decodeLossy (bs : List UInt8) : List Char :=
  (decode bs).map (·.getD '�')

end XsdTypes.Chars
