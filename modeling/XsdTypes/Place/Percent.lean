import XsdTypes.Chars.Numeral
import XsdTypes.Chars.Utf8

/-!
# Percent encoding

A character that may not stand for itself in a part of a URL is written byte by byte, each byte as
a percent sign and two hexadecimal digits in upper case. Which characters these are depends on the
part; control characters and all that is not ASCII are always among them.
-/

namespace XsdTypes.Percent

/-- Whether a character is a control character or not ASCII. -/
def isControl (c : Char) : Bool :=
  c.toNat < 0x20 || 0x7E < c.toNat

/-- What is encoded in a fragment. -/
def inFragment (c : Char) : Bool :=
  isControl c || [' ', '"', '<', '>', Char.ofNat 0x60].contains c

/-- What is encoded in a path. -/
def inPath (c : Char) : Bool :=
  inFragment c || ['#', '?', '{', '}'].contains c

/-- What is encoded in a user name or a password. -/
def inUserInfo (c : Char) : Bool :=
  inPath c || ['/', ':', ';', '=', '@', '[', '\\', ']', '^', '|'].contains c

/-- What is encoded in a query; with a special scheme that includes the single quote. -/
def inQuery (isSpecial : Bool) (c : Char) : Bool :=
  isControl c || [' ', '"', '#', '<', '>'].contains c || (isSpecial && c == '\'')

/-- One hexadecimal digit in upper case. -/
def upperHex (n : Nat) : Char :=
  if n < 10 then Char.ofNat ('0'.toNat + n) else Char.ofNat ('A'.toNat + (n - 10))

/-- A byte in its written form. -/
def encodeByte (b : UInt8) : List Char :=
  ['%', upperHex (b.toNat / 16), upperHex (b.toNat % 16)]

/-- The text with the characters that `isCoded` picks encoded. -/
def encode (isCoded : Char → Bool) (cs : List Char) : List Char :=
  cs.flatMap fun c => if isCoded c then (Chars.bytes [c]).flatMap encodeByte else [c]

/-- The bytes of a text, a percent sign with two digits after it being one byte. -/
def decode : List Char → List UInt8
  | [] => []
  | '%' :: h :: l :: cs =>
    match Chars.digit? 16 h, Chars.digit? 16 l with
    | some high, some low => UInt8.ofNat (high * 16 + low) :: decode cs
    | _, _ => Chars.bytes ['%'] ++ decode (h :: l :: cs)
  | c :: cs => Chars.bytes [c] ++ decode cs

end XsdTypes.Percent
