import XsdTypes.Place.Domain.Composition
import XsdTypes.Place.Domain.Direction
import XsdTypes.Place.Domain.Joining
import XsdTypes.Place.Domain.Mapping
import XsdTypes.Place.Domain.Punycode

/-!
# Domains in ASCII

A domain may hold characters beyond ASCII. It is looked up in ASCII alone: characters are replaced
by those that stand for them, the text is composed, and every label that is still not in ASCII is
coded. A label that is coded already has to be one that could have been coded.
-/

namespace XsdTypes.Domain

/-- What a coded label starts with. -/
def codedStart : List Char := ['x', 'n', '-', '-']

/-- The length of the longest text that is read from a coded label, before it is read. -/
def longestCoded : Nat := 2000

/-- The length of the longest label that has a coded form. -/
def longestLabel : Nat := 1000

/-- Whether a text has no character beyond ASCII. -/
def isAscii (cs : List Char) : Bool :=
  cs.all (·.toNat < 0x80)

/-- A label of a domain. -/
structure Label where
  /-- What it says. -/
  text : List Char
  /-- How it is looked up. -/
  ascii : List Char

/-- Whether a label may be coded. -/
def isCodable (label : List Char) : Bool :=
  label.length ≤ longestLabel && label.all isValid && compose label == label &&
    !label.head?.any isMark && joinersFit label

/-- Reads a label, in which characters have been replaced. What a coded label says may itself look
like a coded label. -/
def label? (cs : List Char) : Option Label :=
  match Chars.strip codedStart cs with
  | some coded =>
    if coded.isEmpty || coded.getLast? == some '-' || longestCoded < coded.length then none
    else
      match Punycode.decode? coded with
      | some text => if isAscii cs && isCodable text then some ⟨text, cs⟩ else none
      | none => none
  | none =>
    if isAscii cs then some ⟨cs, cs⟩
    else if isCodable cs then some ⟨cs, codedStart ++ Punycode.encode cs⟩
    else none

/-- Whether the labels may stand in one domain. -/
def mayStandTogether (labels : List Label) : Bool :=
  !(labels.any fun l => turnsDomain l.text) ||
    labels.all fun l => directionsFit (l.text.map Direction.of)

/-- The domain in ASCII. -/
def toAscii? (cs : List Char) : Option (List Char) := do
  let mapped ← mapAll? cs
  let labels ← (Chars.splitAt (· == '.') (compose mapped)).mapM label?
  if mayStandTogether labels then some (Chars.join ['.'] (labels.map (·.ascii))) else none

end XsdTypes.Domain
